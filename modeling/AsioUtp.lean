import AsioUtp.MultiplexerFacts
import AsioUtp.ContextFacts
import AsioUtp.UdpMultiplexerFacts
import AsioUtp.SendLedger
import AsioUtp.Fanout
import AsioUtp.Handles
import AsioUtp.Closed
import AsioUtp.Accepting
import AsioUtp.Outstanding
import AsioUtp.Reentry
import AsioUtp.Receive
import AsioUtp.ReadPaths
import AsioUtp.Writing
import AsioUtp.FatalSend
import AsioUtp.SockaddrFacts
import AsioUtp.Ownership
import AsioUtp.Retention
import AsioUtp.Registry
import AsioUtp.Orphans
import AsioUtp.Signal
import AsioUtp.SignalFacts
import AsioUtp.IncomingCode
import AsioUtp.Release
import AsioUtp.Calls
import AsioUtp.Inventory
import AsioUtp.Lib.Fifo
import AsioUtp.Lib.History
import AsioUtp.Stream
import AsioUtp.Link
import AsioUtp.Excess
import AsioUtp.Faults
import AsioUtp.Lib.Descent
import AsioUtp.Lingering
import AsioUtp.WindDown
import AsioUtp.Loop
import AsioUtp.ReceiveLedger
import AsioUtp.Node
import AsioUtp.Ports
import AsioUtp.Firing
