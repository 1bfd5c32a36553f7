/-
`socket`, the callbacks `context` gives to libutp, and the whole as a machine.

One event is one call from outside: by the user on a `socket`, by libutp
through a callback, by the executor running a posted completion, or one of
the context's own receive loop and ticker. What libutp does inside such a
call is in the event.
-/
import AsioUtp.SocketImpl

namespace AsioUtp

namespace World

/-! ## `socket` -/

/-- The next call's handler. -/
def nextHandler (w : World) : Handler := { op := w.ops }

def numberOp (w : World) : World := { w with ops := w.ops + 1 }

/-- An operation on a `socket` without `_socket_impl`. -/
def postBadDescriptor (w : World) (slot : Slot) (h : Handler) : World :=
  w.post { impl := none, slot, handler := h, ec := .badDescriptor }

/-- `socket::bind`, on a `udp_multiplexer` or an endpoint of this context; it refuses
a socket that has a `_socket_impl` with `already_open`. -/
def bind (w : World) (v : Nat) : World :=
  match (w.sockets v).impl with
  | some _ => w
  | none =>
    let i := w.registeredSockets.length
    let w := w.setImpl i { owner := some v }
    { w.setSocket v { impl := some i, multiplexer := true } with registeredSockets := w.registeredSockets ++ [i] }

/-- `socket::close`, which `~socket` calls too. -/
def close (w : World) (v : Nat) : Except Fault World :=
  match (w.sockets v).impl with
  | none => .ok w
  | some i => do
    let w ← if (w.impls i).closed then .ok w else w.closeWithError i .operationAborted
    return w.setSocket v {}

/-- `socket::socket(socket&&)`, for a new socket object. -/
def moveConstruct (w : World) (v : Nat) : World :=
  let v' := w.made
  let s := w.sockets v
  let w := (({ w with made := v' + 1 } : World).setSocket v {}).setSocket v' s
  match s.impl with
  | some i => w.setImpl i { w.impls i with owner := some v' }
  | none => w

/-- `socket::operator=(socket&&)`. The assertion reads `_owner` through the
`_socket_impl` just moved from. -/
def moveAssign (w : World) (v v' : Nat) : Except Fault World := do
  let w ← w.close v
  let s := w.sockets v'
  let w := (w.setSocket v' {}).setSocket v s
  match s.impl with
  | some _ => .error .nullPointer
  | none => return w

/-- The address `socket::do_connect` connects to in place of an unspecified one. -/
def connectAddress (a : Address) : Address :=
  if a.isUnspecified then
    match a with
    | .v4 _ => Address.loopbackV4
    | .v6 _ _ => Address.loopbackV6
  else a

def asyncConnect (w : World) (v : Nat) (ep : Endpoint) (ecs onClose : List ErrorCode) : Except Fault World :=
  let h := w.nextHandler
  let w := w.numberOp
  match (w.sockets v).impl with
  | none => .ok (w.postBadDescriptor .connect h)
  | some i => w.doConnect i { ep with address := connectAddress ep.address } h ecs onClose

def asyncAccept (w : World) (v : Nat) : Except Fault World :=
  let h := w.nextHandler
  let w := w.numberOp
  match (w.sockets v).impl with
  | none => .ok (w.postBadDescriptor .accept h)
  | some i => w.doAccept i h

def asyncWriteSome (w : World) (v : Nat) (bufs : List (List UInt8)) (rs : List WriteReply) : Except Fault World :=
  let h := w.nextHandler
  let w := w.numberOp
  match (w.sockets v).impl with
  | none => .ok (w.postBadDescriptor .send h)
  | some i => (w.setImpl i { w.impls i with txBuffers := bufs }).doWrite i h rs

def asyncReadSome (w : World) (v : Nat) (bufs : List (List UInt8)) : Except Fault World :=
  let h := w.nextHandler
  let w := w.numberOp
  match (w.sockets v).impl with
  | none => .ok (w.postBadDescriptor .recv h)
  | some i => (w.setImpl i { w.impls i with rxBuffers := bufs }).doRead i h

/-! ## The callbacks of libutp -/

inductive StateChange
  | connect
  | writable
  | eof
  | destroying
  deriving Repr, DecidableEq

/-- `context::callback_on_state_change`; a resumed write's calls of `utp_write` answer `rs`. -/
def callbackOnStateChange (w : World) (u : Nat) (state : StateChange) (rs : List WriteReply) : Except Fault World :=
  match (w.utp u).userdata with
  | none => .ok w
  | some i =>
    match state with
    | .connect => w.onConnect i
    | .writable => w.onWritable i rs
    | .eof => w.onEof i
    | .destroying => w.onDestroy i

/-- A notification; after `UTP_STATE_DESTROYING` the `utp_socket` is gone. -/
def stateChange (w : World) (u : Nat) (state : StateChange) (rs : List WriteReply) : Except Fault World := do
  let w ← w.callbackOnStateChange u state rs
  return if state = .destroying then w.setUtp u { w.utp u with alive := false } else w

/-- `context::callback_on_read`. -/
def callbackOnRead (w : World) (u : Nat) (buf : List UInt8) (ecs : List ErrorCode) : Except Fault World :=
  match (w.utp u).userdata with
  | none => .error (.assertion .onReadSocket)
  | some i => w.onReceive i buf ecs

/-- `context::callback_on_firewall`: is the connection refused? -/
def callbackOnFirewall (w : World) : Bool := w.acceptingSockets.isEmpty

/-- `context::callback_on_accept`. -/
def callbackOnAccept (w : World) (u : Nat) : Except Fault World :=
  match w.acceptingSockets with
  | [] => .ok w
  | i :: rest => ({ w with acceptingSockets := rest } : World).onAccept i u

/-- A connection arrives: libutp asks the firewall, makes a socket, sends its
answer and hands the socket over. -/
def incoming (w : World) (ep : Endpoint) (ecs onClose : List ErrorCode) : Except Fault World :=
  if w.callbackOnFirewall then .ok w
  else do
    let u := w.created
    let w := ({ w with created := u + 1 } : World).setUtp u { alive := true, peer := ep, onClose }
    let w ← w.sends ecs
    w.callbackOnAccept u

/-! ## Completions -/

/-- The executor takes a completion and calls the user's handler. -/
def run (w : World) (c : Completion) : World :=
  { w with posted := w.posted.erase c, running := c :: w.running }

/-- The user's handler has returned: the continuation of `exec_after` is called. -/
def ran (w : World) : World :=
  match w.running with
  | [] => w
  | c :: rest =>
    let w := { w with running := rest }
    if c.handler.after then { w with ctx := w.ctx.decrementOutstandingOps } else w

/-! ## The machine -/

inductive Event
  | socket
  | bind (v : Nat)
  | moveConstruct (v : Nat)
  | moveAssign (v v' : Nat)
  /-- `close` or destruction of the `socket`. -/
  | close (v : Nat)
  | asyncConnect (v : Nat) (ep : Endpoint) (ecs onClose : List ErrorCode)
  | asyncAccept (v : Nat)
  | asyncWriteSome (v : Nat) (bufs : List (List UInt8)) (rs : List WriteReply)
  | asyncReadSome (v : Nat) (bufs : List (List UInt8))
  /-- libutp sends a datagram outside any call of a `socket_impl`. -/
  | sendto (ec : ErrorCode)
  | stateChange (u : Nat) (state : StateChange) (rs : List WriteReply)
  | onRead (u : Nat) (buf : List UInt8) (ecs : List ErrorCode)
  | incoming (ep : Endpoint) (ecs onClose : List ErrorCode)
  | run (c : Completion)
  | ran
  /-- The receive loop and the ticker; the multiplexer's end. -/
  | context (ev : Context.Event)
  deriving Repr, DecidableEq

/-- The context's own events, the end of the multiplexer apart, and when that end comes:
no `socket` holds the multiplexer; libutp has destroyed its sockets. -/
def ContextEnabled (w : World) : Context.Event → Prop
  | .increment | .decrement => False
  | .destroy => ∀ v < w.made, (w.sockets v).multiplexer = false
  | .destroyed => ∀ u < w.created, (w.utp u).alive = false
  | _ => True

/-- What can happen in `w`. The user's calls keep to what the code asserts of its slots, and
libutp calls back about sockets that are there. -/
def Enabled (w : World) : Event → Prop
  | .socket => True
  | .bind v => v < w.made ∧ w.ctx.alive = true
  | .moveConstruct v | .close v => v < w.made
  | .moveAssign v v' => v < w.made ∧ v' < w.made
  | .asyncConnect v _ _ _ => v < w.made ∧ ∀ i ∈ (w.sockets v).impl, (w.impls i).utpSocket = none
  | .asyncAccept v => v < w.made ∧ ∀ i ∈ (w.sockets v).impl, ¬ w.Pending i .accept ∧ i ∉ w.acceptingSockets
  | .asyncWriteSome v _ _ => v < w.made ∧ ∀ i ∈ (w.sockets v).impl, ¬ w.Pending i .send
  | .asyncReadSome v _ => v < w.made ∧ ∀ i ∈ (w.sockets v).impl, ¬ w.Pending i .recv
  | .sendto _ | .incoming _ _ _ => w.ctx.utpCtx = true
  | .stateChange u _ _ | .onRead u _ _ => u < w.created ∧ (w.utp u).alive = true
  | .run c => c ∈ w.posted
  | .ran => w.running ≠ []
  | .context ev => w.ctx.Enabled ev ∧ w.ContextEnabled ev

instance (w : World) : (ev : Context.Event) → Decidable (w.ContextEnabled ev)
  | .increment | .decrement => inferInstanceAs (Decidable False)
  | .destroy => inferInstanceAs (Decidable (∀ v < w.made, _))
  | .destroyed => inferInstanceAs (Decidable (∀ u < w.created, _))
  | .register _ | .unlink _ | .received _ _ _ | .next | .readEnd | .flushed | .waited | .tickEnd =>
    inferInstanceAs (Decidable True)

instance (w : World) : (ev : Event) → Decidable (w.Enabled ev)
  | .socket => inferInstanceAs (Decidable True)
  | .bind _ => inferInstanceAs (Decidable (_ ∧ _))
  | .moveConstruct _ | .close _ => inferInstanceAs (Decidable (_ < _))
  | .moveAssign _ _ => inferInstanceAs (Decidable (_ ∧ _))
  | .asyncConnect v _ _ _ => inferInstanceAs (Decidable (_ ∧ ∀ i ∈ (w.sockets v).impl, _))
  | .asyncAccept v => inferInstanceAs (Decidable (_ ∧ ∀ i ∈ (w.sockets v).impl, _))
  | .asyncWriteSome v _ _ => inferInstanceAs (Decidable (_ ∧ ∀ i ∈ (w.sockets v).impl, _))
  | .asyncReadSome v _ => inferInstanceAs (Decidable (_ ∧ ∀ i ∈ (w.sockets v).impl, _))
  | .sendto _ | .incoming _ _ _ => inferInstanceAs (Decidable (_ = _))
  | .stateChange _ _ _ | .onRead _ _ _ => inferInstanceAs (Decidable (_ ∧ _))
  | .run _ => inferInstanceAs (Decidable (_ ∈ _))
  | .ran => inferInstanceAs (Decidable (_ ≠ _))
  | .context ev => inferInstanceAs (Decidable (w.ctx.Enabled ev ∧ w.ContextEnabled ev))

def step (w : World) : Event → Except Fault World
  | .socket => .ok { w with made := w.made + 1 }
  | .bind v => .ok (w.bind v)
  | .moveConstruct v => .ok (w.moveConstruct v)
  | .moveAssign v v' => w.moveAssign v v'
  | .close v => w.close v
  | .asyncConnect v ep ecs onClose => w.asyncConnect v ep ecs onClose
  | .asyncAccept v => w.asyncAccept v
  | .asyncWriteSome v bufs rs => w.asyncWriteSome v bufs rs
  | .asyncReadSome v bufs => w.asyncReadSome v bufs
  | .sendto ec => w.callbackSendto ec
  | .stateChange u state rs => w.stateChange u state rs
  | .onRead u buf ecs => w.callbackOnRead u buf ecs
  | .incoming ep ecs onClose => w.incoming ep ecs onClose
  | .run c => .ok (w.run c)
  | .ran => .ok w.ran
  | .context ev => do return { w with ctx := ← w.ctx.step ev }

end World

end AsioUtp
