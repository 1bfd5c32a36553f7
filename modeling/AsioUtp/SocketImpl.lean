/-
`socket_impl`: reading, writing, connecting, accepting, and the callbacks of
libutp.
-/
import AsioUtp.World

namespace AsioUtp

/-- What one call of `utp_write` does: the sends it makes answer `sends`, and it
accepts `accepted` bytes. -/
structure WriteReply where
  sends : List ErrorCode := []
  accepted : Nat := 0
  deriving Repr, DecidableEq

namespace World

/-! ## Receiving -/

/-- The loop of `on_receive` over the destination buffers: what they hold
after it, how much was copied, and what is left to be queued. It ends with the
first buffer that does not take all that is left. -/
def fillBuffers : List (List UInt8) → List UInt8 → List (List UInt8) × Nat × List UInt8
  | [], _ => ([], 0, [])
  | d :: ds, src =>
    let c := min d.length src.length
    if src.drop c ≠ [] then (Scatter.overwrite d src :: ds, c, src.drop c)
    else
      let (ds', total, left) := fillBuffers ds (src.drop c)
      (Scatter.overwrite d src :: ds', c + total, left)

/-- `utp_read_drained`, whose sends answer `ecs`. -/
def utpReadDrained (w : World) (u : Option Nat) (ecs : List ErrorCode) : Except Fault World :=
  match u with
  | none => .error .nullSocket
  | some u => do
    Except.require ((w.utp u).alive = true) .deadSocket
    w.sends ecs

/-- The waiting read's buffers take `buf`, and what they do not take is queued. -/
def fill (s : SocketImpl) (buf : List UInt8) : SocketImpl :=
  let (bufs, _, left) := fillBuffers s.rxBuffers buf
  let queue := if left = [] then s.rxBufferQueue else s.rxBufferQueue ++ [{ data := left }]
  { s with rxBuffers := bufs, rxBufferQueue := queue }

/-- `if (total == size) utp_read_drained(...)`. -/
def drainedIf (w : World) (i : Nat) (drained : Bool) (ecs : List ErrorCode) : Except Fault World :=
  if drained then w.utpReadDrained (w.impls i).utpSocket ecs else .ok w

/-- `socket_impl::on_receive`; the sends of `utp_read_drained`, if it is called, answer `ecs`. -/
def onReceive (w : World) (i : Nat) (buf : List UInt8) (ecs : List ErrorCode) : Except Fault World := do
  let s := w.impls i
  match s.handlers .recv with
  | none => return w.setImpl i { s with rxBufferQueue := s.rxBufferQueue ++ [{ data := buf }] }
  | some _ =>
    Except.require (s.rxBufferQueue = []) (.assertion .onReceiveQueue)
    let total := (fillBuffers s.rxBuffers buf).2.1
    let w ← (w.setImpl i (fill s buf)).drainedIf i (total = buf.length) ecs
    w.postOp i .recv .success total ((fill s buf).rxBuffers.flatten.take total)

/-- The loop at the end of `do_read`: `r` bytes are taken off the queue. -/
def drain : Nat → List Buf → Except Fault (List Buf)
  | r, [] => do
    Except.require (r = 0) (.assertion .doReadQueue)
    return []
  | r, b :: bs =>
    if r = 0 then .ok (b :: bs)
    else if b.data.length - b.consumed ≤ r then drain (r - (b.data.length - b.consumed)) bs
    else .ok ({ b with consumed := b.consumed + r } :: bs)

/-- The bytes received and not read. -/
def unread (queue : List Buf) : List UInt8 := queue.flatMap Buf.unread

/-- `socket_impl::do_read`. -/
def doRead (w : World) (i : Nat) (h : Handler) : Except Fault World := do
  let s := w.impls i
  Except.require (s.handlers .recv = none) (.assertion .doRead)
  if s.closed then
    return w.post { impl := some i, slot := .recv, handler := h, ec := .badDescriptor }
  else if s.rxBuffers.flatten.length = 0 then
    return w.post { impl := some i, slot := .recv, handler := h, ec := .success }
  else
    let w ← w.setupOp i .recv h
    if s.rxBufferQueue = [] then
      if s.gotEof then w.closeWithError i .connectionReset else return w
    else
      let n := Scatter.copied s.rxBuffers (unread s.rxBufferQueue)
      let bufs := Scatter.copy s.rxBuffers (unread s.rxBufferQueue)
      let queue ← drain n s.rxBufferQueue
      let w := w.setImpl i { w.impls i with rxBuffers := bufs, rxBufferQueue := queue }
      w.postOp i .recv .success n (bufs.flatten.take n)

/-! ## Writing -/

/-- `utp_write` of `b`. -/
def utpWrite (w : World) (u : Nat) (b : List UInt8) (r : WriteReply) : Except Fault World := do
  Except.require ((w.utp u).alive = true) .deadSocket
  let w ← w.sends r.sends
  return w.setUtp u { w.utp u with written := (w.utp u).written ++ b.take r.accepted }

/-- The `while` loop of `do_write` over one buffer: what is left of it, the
replies not used, and `still_writable`. Every turn but the last takes
something off the buffer, so `b.length + 1` turns are enough. -/
def writeBuffer (i u : Nat) :
    Nat → World → List UInt8 → List WriteReply → Except Fault (World × List UInt8 × List WriteReply × Bool)
  | 0, _, _, _ => .error .diverged
  | turns + 1, w, b, rs =>
    if b = [] then .ok (w, b, rs, true)
    else do
      let r := rs.headD {}
      let w ← w.utpWrite u b r
      let w := w.setImpl i { w.impls i with bytesSent := (w.impls i).bytesSent + r.accepted }
      let b := b.drop r.accepted
      if r.accepted < b.length then return (w, b, rs.tail, false)
      else writeBuffer i u turns w b rs.tail

/-- The `for` loop of `do_write`. -/
def writeBuffers (i u : Nat) :
    World → List (List UInt8) → List WriteReply → Except Fault (World × List (List UInt8) × Bool)
  | w, [], _ => .ok (w, [], true)
  | w, b :: bs, rs => do
    let (w, b, rs, stillWritable) ← writeBuffer i u (b.length + 1) w b rs
    if stillWritable then
      let (w, bs, stillWritable) ← writeBuffers i u w bs rs
      return (w, b :: bs, stillWritable)
    else return (w, b :: bs, false)

/-- `socket_impl::do_write`; its calls of `utp_write` answer `rs`, one after the
other, and accept nothing beyond that. -/
def doWrite (w : World) (i : Nat) (h : Handler) (rs : List WriteReply) : Except Fault World := do
  Except.require ((w.impls i).handlers .send = none) (.assertion .doWrite)
  match (w.impls i).utpSocket with
  | none => return w.post { impl := some i, slot := .send, handler := h, ec := .badDescriptor }
  | some u =>
    let w ← w.setupOp i .send h
    let (w, bufs, stillWritable) ← writeBuffers i u w (w.impls i).txBuffers rs
    let w := w.setImpl i { w.impls i with txBuffers := bufs }
    if stillWritable then
      let w ← w.postOp i .send .success (w.impls i).bytesSent []
      return w.setImpl i { w.impls i with bytesSent := 0 }
    else return w

/-- `socket_impl::on_writable`. -/
def onWritable (w : World) (i : Nat) (rs : List WriteReply) : Except Fault World :=
  match (w.impls i).handlers .send with
  | none => .ok w
  | some h => (w.setImpl i ((w.impls i).setHandler .send none)).doWrite i h rs

/-! ## Connecting and accepting -/

/-- `utp_set_userdata(u, this)`, of `i`. -/
def utpSetUserdata (w : World) (u i : Nat) : Except Fault World := do
  Except.require ((w.utp u).alive = true) .deadSocket
  return w.setUtp u { w.utp u with userdata := some i }

/-- `socket_impl::do_connect`. libutp's new socket is the next one; the sends of
`utp_connect` answer `ecs`. -/
def doConnect (w : World) (i : Nat) (ep : Endpoint) (h : Handler) (ecs onClose : List ErrorCode) :
    Except Fault World := do
  Except.require ((w.impls i).utpSocket = none) (.assertion .doConnect)
  let w ← w.setupOp i .connect h
  Except.require (w.ctx.utpCtx = true) .nullContext
  let u := w.created
  let w := { w with created := u + 1 }
  let w ← (w.setUtp u { alive := true, peer := ep, onClose }).utpSetUserdata u i
  let w := w.setImpl i { w.impls i with utpSocket := some u }
  w.sends ecs

/-- `socket_impl::on_connect`. -/
def onConnect (w : World) (i : Nat) : Except Fault World := w.postOp i .connect .success 0 []

/-- `context::add_accepting_socket`. -/
def addAcceptingSocket (w : World) (i : Nat) : Except Fault World := do
  Except.require (i ∉ w.acceptingSockets) .hookLinked
  return { w with acceptingSockets := w.acceptingSockets ++ [i] }

/-- `socket_impl::do_accept`. -/
def doAccept (w : World) (i : Nat) (h : Handler) : Except Fault World := do
  Except.require ((w.impls i).handlers .accept = none) (.assertion .doAccept)
  let w ← w.addAcceptingSocket i
  w.setupOp i .accept h

/-- `socket_impl::on_accept`. -/
def onAccept (w : World) (i : Nat) (u : Nat) : Except Fault World := do
  Except.require ((w.impls i).utpSocket = none) (.assertion .onAcceptSocket)
  Except.require (w.Pending i .accept) (.assertion .onAcceptHandler)
  let w ← w.utpSetUserdata u i
  let w := w.setImpl i { w.impls i with utpSocket := some u }
  w.postOp i .accept .success 0 []

/-- What `socket_impl::remote_endpoint` calls `utp_getpeername` on; it asserts that there is one. -/
def getpeernameOn (w : World) (i : Nat) : Option Nat := (w.impls i).utpSocket

/-! ## The end of a connection -/

/-- `socket_impl::on_eof`. -/
def onEof (w : World) (i : Nat) : Except Fault World := do
  Except.require ((w.impls i).gotEof = false) (.assertion .onEof)
  let w := w.setImpl i { w.impls i with gotEof := true }
  return w.postIfSet i .recv .connectionReset

/-- `socket_impl::on_destroy`. -/
def onDestroy (w : World) (i : Nat) : Except Fault World := do
  Except.require ((w.impls i).utpSocket ≠ none) (.assertion .onDestroy)
  let w := w.setImpl i { w.impls i with utpSocket := none }
  let w ← w.closeWithError i .connectionAborted
  if (w.impls i).decrementClose then
    let w := { w with ctx := w.ctx.decrementOutstandingOps }
    return w.setImpl i { w.impls i with decrementClose := false }
  else return w

end World

end AsioUtp
