/-
The objects of one context: its `socket_impl`s, the `socket`s that own them,
libutp's sockets, and the completions on their way to the user.

Objects that point at each other are numbered, and the world maps numbers to
objects. A handler is named by the number of the call it completes, so that
one can say which call a completion is of. libutp is not modelled further
than the library sees it: what it answers is in the events, and what its
sends inside `utp_close` answer is in the socket (`onClose`), since
`utp_close` is called at most once per socket. The `on_send_to` slots that a
send calls before it returns are taken to leave the sockets alone.
-/
import AsioUtp.Context
import AsioUtp.Lib.Scatter
import Mathlib.Logic.Function.Basic

namespace AsioUtp

/-- The handler slots of a `socket_impl`: `_connect_handler`, `_accept_handler`,
`_recv_handler` and `_send_handler`. -/
inductive Slot
  | connect
  | accept
  | recv
  | send
  deriving Repr, DecidableEq

/-- A non-empty `handler`: the call it completes, and whether `exec_after` gave
it a continuation. -/
structure Handler where
  op : Nat
  after : Bool := false
  deriving Repr, DecidableEq

/-- `socket_impl::buf_t`. -/
structure Buf where
  data : List UInt8
  consumed : Nat := 0
  deriving Repr, DecidableEq

/-- `buf_t::operator const_buffer`. -/
def Buf.unread (b : Buf) : List UInt8 := b.data.drop b.consumed

structure SocketImpl where
  utpSocket : Option Nat := none
  owner : Option Nat := none
  closed : Bool := false
  gotEof : Bool := false
  handlers : Slot → Option Handler := fun _ => none
  bytesSent : Nat := 0
  txBuffers : List (List UInt8) := []
  rxBufferQueue : List Buf := []
  rxBuffers : List (List UInt8) := []
  decrementClose : Bool := false

/-- A `socket`: its `_socket_impl`, and whether it holds `_multiplexer`. -/
structure Socket where
  impl : Option Nat := none
  multiplexer : Bool := false
  deriving Repr, DecidableEq

/-- A `utp_socket`. -/
structure UtpSocket where
  alive : Bool := false
  userdata : Option Nat := none
  peer : Endpoint := default
  /-- The bytes `utp_write` has accepted. -/
  written : List UInt8 := []
  /-- How often `utp_close` has been called on it. -/
  closes : Nat := 0
  /-- What the sends libutp makes inside `utp_close` answer. -/
  onClose : List ErrorCode := []
  deriving Repr, DecidableEq

/-- A handler posted with its arguments, the `socket_impl` and the slot it comes
from, and for a read what is then in the first `size` bytes of its buffers. -/
structure Completion where
  impl : Option Nat
  slot : Slot
  handler : Handler
  ec : ErrorCode
  size : Nat := 0
  data : List UInt8 := []
  deriving Repr, DecidableEq

structure World where
  ctx : Context := {}
  registeredSockets : List Nat := []
  acceptingSockets : List Nat := []
  impls : Nat → SocketImpl := fun _ => {}
  /-- The `socket` objects constructed so far are those below `made`. -/
  made : Nat := 0
  sockets : Nat → Socket := fun _ => {}
  /-- The `utp_socket`s libutp has made so far are those below `created`. -/
  created : Nat := 0
  utp : Nat → UtpSocket := fun _ => {}
  /-- Calls are numbered in the order they are made. -/
  ops : Nat := 0
  posted : List Completion := []
  /-- The completions on the stack, innermost first. -/
  running : List Completion := []

namespace World

def setImpl (w : World) (i : Nat) (s : SocketImpl) : World := { w with impls := Function.update w.impls i s }

def setUtp (w : World) (u : Nat) (s : UtpSocket) : World := { w with utp := Function.update w.utp u s }

def setSocket (w : World) (v : Nat) (s : Socket) : World := { w with sockets := Function.update w.sockets v s }

/-- `handler::post` of a handler that is in no slot. -/
def post (w : World) (c : Completion) : World := { w with posted := w.posted ++ [c] }

/-- Is the slot non-empty? -/
def Pending (w : World) (i : Nat) (s : Slot) : Prop := (w.impls i).handlers s ≠ none

instance (w : World) (i : Nat) (s : Slot) : Decidable (w.Pending i s) := inferInstanceAs (Decidable (¬ _))

end World

/-- `target = h` for a slot, and `std::move` out of one. -/
def SocketImpl.setHandler (s : SocketImpl) (slot : Slot) (h : Option Handler) : SocketImpl :=
  { s with handlers := Function.update s.handlers slot h }

namespace World

/-! ## Operations in their slots -/

/-- `socket_impl::setup_op`. -/
def setupOp (w : World) (i : Nat) (slot : Slot) (h : Handler) : Except Fault World := do
  let c ← w.ctx.incrementOutstandingOps
  return ({ w with ctx := c } : World).setImpl i ((w.impls i).setHandler slot (some { h with after := true }))

/-- `socket_impl::post_op`, and `dispatch_op`: the executor may run a dispatched
handler at once, which is the event of running it. -/
def postOp (w : World) (i : Nat) (slot : Slot) (ec : ErrorCode) (size : Nat) (data : List UInt8) :
    Except Fault World :=
  match (w.impls i).handlers slot with
  | none => .error .emptyHandler
  | some h =>
    .ok ((w.setImpl i ((w.impls i).setHandler slot none)).post
      { impl := some i, slot, handler := h, ec, size, data })

/-- `if (slot) post_op(slot, ec)`. -/
def postIfSet (w : World) (i : Nat) (slot : Slot) (ec : ErrorCode) : World :=
  match (w.impls i).handlers slot with
  | none => w
  | some h =>
    (w.setImpl i ((w.impls i).setHandler slot none)).post { impl := some i, slot, handler := h, ec }

/-! ## Closing -/

/-- The errors `callback_sendto` closes every socket for. -/
def fatal (ec : ErrorCode) : Bool := ec.isError && ec != .badDescriptor && ec != .wouldBlock

/-- `context::callback_sendto` for a send that answers `ec`, with `close` for
`close_with_error`. -/
def callbackSendtoWith (close : World → Nat → ErrorCode → Except Fault World) (w : World) (ec : ErrorCode) :
    Except Fault World :=
  if w.ctx.alive ∧ fatal ec then w.registeredSockets.foldlM (fun w i => close w i ec) w else .ok w

/-- `utp_close`, up to the sends it makes. -/
def utpClose (w : World) (u : Nat) : Except Fault World := do
  Except.require ((w.utp u).alive = true) .deadSocket
  return w.setUtp u { w.utp u with closes := (w.utp u).closes + 1 }

/-- `close_with_error` up to `utp_close`. -/
def shut (w : World) (i : Nat) (ec : ErrorCode) : World :=
  let w := w.setImpl i { w.impls i with closed := true }
  (((w.postIfSet i .accept ec).postIfSet i .connect ec).postIfSet i .recv ec).postIfSet i .send ec

/-- `_owner->_socket_impl = nullptr; _owner = nullptr`, if there is an owner. -/
def dropOwner (w : World) (i : Nat) : World :=
  match (w.impls i).owner with
  | some v => (w.setSocket v { w.sockets v with impl := none }).setImpl i { w.impls i with owner := none }
  | none => w

/-- `close_with_error` after `utp_close`. -/
def finishClose (w : World) (i : Nat) : Except Fault World := do
  let w := w.dropOwner i
  Except.require ((w.impls i).decrementClose = false) (.assertion .decrementClose)
  let c ← w.ctx.incrementOutstandingOps
  return ({ w with ctx := c } : World).setImpl i { w.impls i with decrementClose := true }

/-- `socket_impl::close_with_error`. It re-enters itself through `utp_close` and
`callback_sendto`; `depth` bounds how often. -/
def closeWithErrorDepth : Nat → World → Nat → ErrorCode → Except Fault World
  | 0, _, _, _ => .error .diverged
  | depth + 1, w, i, ec =>
    if (w.impls i).closed then do
      Except.require (¬ w.Pending i .accept) (.assertion .closedAccept)
      Except.require (¬ w.Pending i .connect) (.assertion .closedConnect)
      Except.require (¬ w.Pending i .recv) (.assertion .closedRecv)
      Except.require (¬ w.Pending i .send) (.assertion .closedSend)
      return w
    else
      let gotEof := (w.impls i).gotEof
      let w := w.shut i ec
      match (w.impls i).utpSocket with
      | some u =>
        if gotEof then .ok w
        else do
          let w ← w.utpClose u
          let w ← (w.utp u).onClose.foldlM (callbackSendtoWith (closeWithErrorDepth depth)) w
          w.finishClose i
      | none => .ok w

/-- Every level of re-entry closes one more socket, so this is deep enough. -/
def closeWithError (w : World) (i : Nat) (ec : ErrorCode) : Except Fault World :=
  closeWithErrorDepth (w.registeredSockets.length + 2) w i ec

/-- `context::callback_sendto`. -/
def callbackSendto (w : World) (ec : ErrorCode) : Except Fault World :=
  callbackSendtoWith closeWithError w ec

/-- The sends a call into libutp makes before it returns. -/
def sends (w : World) (ecs : List ErrorCode) : Except Fault World := ecs.foldlM callbackSendto w

end World

end AsioUtp
