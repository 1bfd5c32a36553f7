/-
`udp_multiplexer_impl`: the receive loop every user of one UDP port shares.

The state is cut where foreign code runs. A completion of
`async_receive_from` runs `flush_handlers`, which moves the registered
entries to a local list and calls them one by one; a called handler may
register and unlink entries, so between two calls the machine stops with the
local list in `flushing`, and the handler's doings are events of their own.

Nothing in this code closes the UDP socket, and it is taken not to be closed
behind the multiplexer's back: it is open from the start and stays so.
-/
import AsioUtp.Error
import AsioUtp.Endpoint

namespace AsioUtp

/-- `abstract_udp_socket`, as the multiplexer uses it. -/
structure UdpSocket where
  isOpen : Bool := true
  /-- The receives started and not completed, oldest first: has it been cancelled? -/
  receives : List Bool := []
  deriving Repr, DecidableEq

def UdpSocket.asyncReceiveFrom (s : UdpSocket) : UdpSocket :=
  { s with receives := s.receives ++ [false] }

/-- The oldest receive completes. -/
def UdpSocket.receiveCompleted (s : UdpSocket) : UdpSocket :=
  { s with receives := s.receives.tail }

def UdpSocket.cancel (s : UdpSocket) : UdpSocket :=
  { s with receives := s.receives.map fun _ => true }

/-- A running `flush_handlers`: its arguments and its local `recv_handlers`. -/
structure Flush (ι : Type) where
  ec : ErrorCode
  size : Nat
  rest : List ι
  deriving Repr, DecidableEq

/-- The `recv_entry` objects of one multiplexer: the context's `_recv_handle`
and one in the state of each `udp_multiplexer`. -/
inductive Entry
  | context
  | state (k : Nat)
  deriving Repr, DecidableEq

/-- `udp_multiplexer_impl`; `ι` are the `recv_entry` objects. -/
structure Multiplexer (ι : Type) where
  recvHandlers : List ι := []
  isReceiving : Bool := false
  flushing : Option (Flush ι) := none
  udpSocket : UdpSocket := {}
  /-- `_state`: what the last completed receive wrote, and from whom. -/
  rxEndpoint : Endpoint := default
  rxBuffer : List UInt8 := []
  deriving Repr, DecidableEq

namespace Multiplexer

variable {ι : Type} [DecidableEq ι]

/-- The entries of the running flush not called yet. -/
def pending (m : Multiplexer ι) : List ι := (m.flushing.map Flush.rest).getD []

/-- `e.hook.is_linked()`: in `_recv_handlers` or in the list a flush moved out. -/
def Linked (m : Multiplexer ι) (e : ι) : Prop := e ∈ m.recvHandlers ∨ e ∈ m.pending

instance (m : Multiplexer ι) (e : ι) : Decidable (m.Linked e) := inferInstanceAs (Decidable (_ ∨ _))

def startReceiving (m : Multiplexer ι) : Except Fault (Multiplexer ι) := do
  Except.require (m.isReceiving = false) (.assertion .startReceiving)
  return { m with isReceiving := true, udpSocket := m.udpSocket.asyncReceiveFrom }

def registerRecvHandler (m : Multiplexer ι) (e : ι) : Except Fault (Multiplexer ι) := do
  Except.require (¬ m.Linked e) .hookLinked
  let m := { m with recvHandlers := m.recvHandlers ++ [e] }
  if m.isReceiving then return m else m.startReceiving

def onRecvEntryUnlinked (m : Multiplexer ι) : Multiplexer ι :=
  if m.isReceiving ∧ m.recvHandlers = [] ∧ m.udpSocket.isOpen then
    { m with udpSocket := m.udpSocket.cancel }
  else m

/-- `hook.unlink()`: out of whichever list holds it. -/
def remove (m : Multiplexer ι) (e : ι) : Multiplexer ι :=
  { m with
    recvHandlers := m.recvHandlers.erase e
    flushing := m.flushing.map fun f => { f with rest := f.rest.erase e } }

/-- `recv_entry::unlink`, which `~recv_entry` calls too. -/
def unlink (m : Multiplexer ι) (e : ι) : Multiplexer ι :=
  if m.Linked e then (m.remove e).onRecvEntryUnlinked else m

/-- `flush_handlers` up to its loop: the registered entries move to a local list. -/
def flushHandlers (m : Multiplexer ι) (ec : ErrorCode) (size : Nat) : Multiplexer ι :=
  { m with
    flushing := some ⟨ec, if ec.isError then 0 else size, m.recvHandlers⟩
    recvHandlers := [] }

/-- The end of a completion: receive again if anyone is registered. -/
def receiveAgain (m : Multiplexer ι) : Except Fault (Multiplexer ι) :=
  let m := { m with isReceiving := false }
  if m.recvHandlers = [] then .ok m else m.startReceiving

/-- The outstanding receive completes: the datagram is in the buffer. -/
def receiveCompleted (m : Multiplexer ι) (ep : Endpoint) (data : List UInt8) : Multiplexer ι :=
  { m with udpSocket := m.udpSocket.receiveCompleted, rxEndpoint := ep, rxBuffer := data }

/-- The completion handler `start_receiving` passes to `async_receive_from`,
up to the first entry it calls. -/
def onReceive (m : Multiplexer ι) (ec : ErrorCode) (size : Nat) : Except Fault (Multiplexer ι) := do
  Except.require (m.isReceiving = true) (.assertion .onReceive)
  let canceled := ec = .operationAborted ∧ m.udpSocket.isOpen
  if canceled then m.receiveAgain else return m.flushHandlers ec size

/-- One turn of the loop in `flush_handlers`: the next entry is popped and
called. `handler e` says whether `e.handler` is set. -/
def flushNext (handler : ι → Bool) (m : Multiplexer ι) : Except Fault (Multiplexer ι) :=
  match m.flushing with
  | some ⟨ec, size, e :: rest⟩ => do
    Except.require (handler e = true) (.assertion .flushHandlers)
    return { m with flushing := some ⟨ec, size, rest⟩ }
  | _ => .ok m

/-- The return from `flush_handlers` and the rest of the completion. -/
def flushed (m : Multiplexer ι) : Except Fault (Multiplexer ι) :=
  ({ m with flushing := none } : Multiplexer ι).receiveAgain

/-! ## The loop as a machine -/

inductive Event (ι : Type)
  | register (e : ι)
  /-- `unlink` or the destruction of the entry. -/
  | unlink (e : ι)
  /-- `async_receive_from` completes. -/
  | received (ec : ErrorCode) (ep : Endpoint) (data : List UInt8)
  /-- The running flush calls its next entry. -/
  | next
  /-- The running flush has called every entry. -/
  | flushed
  deriving Repr, DecidableEq

/-- What can happen in `m`: completions are of outstanding receives and run
one at a time, and an entry is registered only while unlinked. -/
def Enabled (m : Multiplexer ι) : Event ι → Prop
  | .register e => ¬ m.Linked e
  | .unlink _ => True
  | .received _ _ _ => m.udpSocket.receives ≠ [] ∧ m.flushing = none
  | .next => m.pending ≠ []
  | .flushed => m.flushing ≠ none ∧ m.pending = []

instance (m : Multiplexer ι) : (ev : Event ι) → Decidable (m.Enabled ev)
  | .register e => inferInstanceAs (Decidable (¬ m.Linked e))
  | .unlink _ => inferInstanceAs (Decidable True)
  | .received _ _ _ => inferInstanceAs (Decidable (m.udpSocket.receives ≠ [] ∧ m.flushing = none))
  | .next => inferInstanceAs (Decidable (m.pending ≠ []))
  | .flushed => inferInstanceAs (Decidable (m.flushing ≠ none ∧ m.pending = []))

def step (m : Multiplexer ι) : Event ι → Except Fault (Multiplexer ι)
  | .register e => m.registerRecvHandler e
  | .unlink e => .ok (m.unlink e)
  | .received ec ep data => (m.receiveCompleted ep data).onReceive ec data.length
  | .next => m.flushNext fun _ => true
  | .flushed => m.flushed

end Multiplexer

end AsioUtp
