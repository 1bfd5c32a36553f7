/-
`udp_multiplexer`: the raw datagram interface on a UDP port, with its receive
entry in the shared receive loop and its sends in flight.

A `Port` is one `udp_multiplexer_impl` with every `udp_multiplexer::state`
ever made on it. A state lives while something holds it: the
`udp_multiplexer`, the handler bound into its own `recv_entry`, or the
completion of a send in flight; its destructor is what takes the entry out of
the receive loop. The endpoint objects of the callers are part of the model,
because a send in flight refers to its destination and a receive to the
endpoint it fills in.

The completion of a send calls the slots of `on_send_to` first and the
handler of `do_send` after them, and a slot may call back into the library.
So a completion is cut in three: its start, the call of one slot, and what
follows the slots. Which slots there are, and in which order they are called,
is the business of `AsioUtp.Signal`; where there is none, the end of the
completion follows its start.
-/
import AsioUtp.Multiplexer
import AsioUtp.Lib.Scatter
import Mathlib.Logic.Function.Basic

namespace AsioUtp

/-- `udp_multiplexer::state`. Handlers are named by the call they complete,
endpoint pointers by the caller's object. -/
structure State where
  /-- Is `recv_entry.handler` set? -/
  handler : Bool := false
  rxEp : Option Nat := none
  rxHandler : Option Nat := none
  txHandler : Option Nat := none
  rxBuffers : List (List UInt8) := []
  txBuffers : List (List UInt8) := []
  /-- Is `impl` set? -/
  impl : Bool := false
  /-- Is it the `_state` of a `udp_multiplexer`? -/
  owned : Bool := false
  deriving Repr, DecidableEq

/-- An underlying `async_send_to` in flight: the call it serves, the state its
handler holds and the destination it refers to. -/
structure Send where
  call : Nat
  state : Nat
  dst : Nat
  deriving Repr, DecidableEq

/-- The completion of `send`, whose `on_send_to` slots are being called. -/
structure SendCompletion where
  send : Send
  ec : ErrorCode
  size : Nat
  deriving Repr, DecidableEq

/-- A handler posted with its arguments. -/
structure Posted where
  call : Nat
  ec : ErrorCode
  size : Nat
  deriving Repr, DecidableEq

/-- An `on_send_to` notification, and the call whose underlying send raised it. -/
structure Notification where
  call : Nat
  buffers : List (List UInt8)
  size : Nat
  dst : Endpoint
  ec : ErrorCode
  deriving Repr, DecidableEq

structure Port where
  multiplexer : Multiplexer Entry := {}
  /-- Is the `udp_multiplexer_impl` still there? -/
  alive : Bool := true
  /-- The states made so far are those below `opened`. -/
  opened : Nat := 0
  states : Nat → State := fun _ => {}
  /-- The endpoint objects of the callers, as long as they live. -/
  endpoints : Nat → Option Endpoint := fun _ => none
  /-- The sends whose completion has not returned. -/
  inFlight : List Send := []
  /-- The completions among them that have started, the last one first. Each has
  locked the `udp_multiplexer_impl`. -/
  completing : List SendCompletion := []
  /-- Calls are numbered in the order they are made. -/
  calls : Nat := 0
  posted : List Posted := []
  notified : List Notification := []

namespace Port

def setState (p : Port) (k : Nat) (s : State) : Port := { p with states := Function.update p.states k s }

def post (p : Port) (call : Nat) (ec : ErrorCode) (size : Nat) : Port :=
  { p with posted := p.posted ++ [⟨call, ec, size⟩] }

/-- Does a `shared_ptr` hold state `k`? -/
def Held (p : Port) (k : Nat) : Prop :=
  (p.states k).owned = true ∨ (p.states k).handler = true ∨ ∃ s ∈ p.inFlight, s.state = k

instance (p : Port) (k : Nat) : Decidable (p.Held k) := inferInstanceAs (Decidable (_ ∨ _ ∨ _))

/-- A holder of state `k` has let go of it; with the last one goes the state,
and `~recv_entry` unlinks. -/
def release (p : Port) (k : Nat) : Port :=
  if p.Held k then p
  else { p with multiplexer := if p.alive then p.multiplexer.unlink (.state k) else p.multiplexer }

/-- `bind` and the copy constructor: a state on this multiplexer. -/
def bind (p : Port) : Port :=
  ({ p with opened := p.opened + 1 } : Port).setState p.opened { handler := true, impl := true, owned := true }

/-- `async_receive_from` and `do_receive`. -/
def asyncReceiveFrom (p : Port) (k : Nat) (ep : Nat) (buffers : List (List UInt8)) : Except Fault Port := do
  let call := p.calls
  let p := { p with calls := p.calls + 1 }
  let s := p.states k
  if s.owned then
    Except.require (s.rxHandler = none) (.assertion .doReceive)
    let p := p.setState k { s with rxBuffers := buffers, rxEp := some ep, rxHandler := some call }
    let m ← p.multiplexer.registerRecvHandler (.state k)
    return { p with multiplexer := m }
  else return p.post call .badDescriptor 0

/-- `async_send_to`, `do_send` and `udp_multiplexer_impl::async_send_to`. -/
def asyncSendTo (p : Port) (k : Nat) (buffers : List (List UInt8)) (dst : Nat) : Port :=
  let call := p.calls
  let p := { p with calls := p.calls + 1 }
  let s := p.states k
  if s.owned then
    let p := p.setState k { s with txBuffers := buffers, txHandler := some call }
    { p with inFlight := p.inFlight ++ [⟨call, k, dst⟩] }
  else p.post call .badDescriptor 0

/-- The handler `do_send` passes on: whatever handler the state holds by now is posted. -/
def onSent (p : Port) (k : Nat) (ec : ErrorCode) (size : Nat) : Port :=
  match (p.states k).txHandler with
  | none => p
  | some call => (p.setState k { p.states k with txHandler := none }).post call ec size

/-- The handler of the send `s` is called, and then goes. -/
def finishSend (p : Port) (s : Send) (ec : ErrorCode) (size : Nat) : Port :=
  (({ p with inFlight := p.inFlight.erase s } : Port).onSent s.state ec size).release s.state

/-- An underlying send completes; as long as the multiplexer is there the slots come first. -/
def sendCompleted (p : Port) (s : Send) (ec : ErrorCode) (size : Nat) : Port :=
  if p.alive then { p with completing := ⟨s, ec, size⟩ :: p.completing }
  else p.finishSend s .operationAborted 0

/-- `_send_to_signal` calls a slot: the buffers and the destination are read
through the references taken when the send started. -/
def sendToSignal (p : Port) : Except Fault Port :=
  match p.completing with
  | [] => .ok p
  | c :: _ =>
    match p.endpoints c.send.dst with
    | none => .error .dangling
    | some dst =>
      let buffers := (p.states c.send.state).txBuffers
      .ok { p with notified := p.notified ++ [{ call := c.send.call, buffers, size := c.size, dst, ec := c.ec }] }

/-- `_send_to_signal` has returned. -/
def onSentEnd (p : Port) : Port :=
  match p.completing with
  | [] => p
  | c :: rest => ({ p with completing := rest } : Port).finishSend c.send c.ec c.size

/-- A handler still set is posted with `operation_aborted`. -/
def postAborted (p : Port) : Option Nat → Port
  | none => p
  | some call => p.post call .operationAborted 0

/-- `close`, which `~udp_multiplexer` calls too. -/
def close (p : Port) (k : Nat) : Port :=
  let s := p.states k
  if s.owned then
    let p := (p.postAborted s.rxHandler).postAborted s.txHandler
    let s := { s with handler := false, rxHandler := none, txHandler := none, impl := false, owned := false }
    (p.setState k s).release k
  else p

/-- `close` where nothing else holds the `udp_multiplexer_impl`, which goes with it. Whether the
entry leaves the loop first makes no difference to a loop that is gone. -/
def closeLast (p : Port) (k : Nat) : Port := { p.close k with alive := false }

/-- Is `e.handler` set? The context's is, from its constructor on. -/
def handlerSet (p : Port) : Entry → Bool
  | .context => true
  | .state k => (p.states k).handler

/-- `state::handle_read`. -/
def handleRead (p : Port) (k : Nat) (ec : ErrorCode) (size : Nat) : Except Fault Port :=
  let s := p.states k
  match s.rxHandler, s.rxEp with
  | none, _ => .ok p
  | some _, none => .error .nullPointer
  | some call, some ep =>
    match p.endpoints ep with
    | none => .error .dangling
    | some _ =>
      let data := p.multiplexer.rxBuffer.take size
      let p := { p with endpoints := Function.update p.endpoints ep (some p.multiplexer.rxEndpoint) }
      let p := p.setState k
        { s with rxEp := none, rxHandler := none, rxBuffers := Scatter.copy s.rxBuffers data }
      .ok (p.post call ec (Scatter.copied s.rxBuffers data))

/-- The flush calls its next entry; the context's returns to its caller's events. -/
def flushNext (p : Port) : Except Fault Port := do
  let m ← p.multiplexer.flushNext p.handlerSet
  let p' := { p with multiplexer := m }
  match p.multiplexer.flushing with
  | some ⟨ec, size, .state k :: _⟩ => p'.handleRead k ec size
  | _ => .ok p'

/-! ## The port as a machine -/

inductive Event
  | bind
  | asyncReceiveFrom (k : Nat) (ep : Nat) (buffers : List (List UInt8))
  | asyncSendTo (k : Nat) (buffers : List (List UInt8)) (dst : Nat)
  /-- The underlying send of a call completes. -/
  | sent (s : Send) (ec : ErrorCode) (size : Nat)
  /-- The completion that started last calls a slot, or has called them all. -/
  | sendToSignal
  | sentEnd
  /-- `close` or destruction of the `udp_multiplexer`. -/
  | close (k : Nat)
  | closeLast (k : Nat)
  /-- A caller assigns an endpoint object, or its life ends. -/
  | setEndpoint (v : Nat) (ep : Option Endpoint)
  /-- The context starts or stops receiving. -/
  | register
  | unlink
  | received (ec : ErrorCode) (ep : Endpoint) (data : List UInt8)
  | next
  | flushed
  /-- Whatever else held the `udp_multiplexer_impl` lets go of it. -/
  | destroy
  deriving Repr, DecidableEq

/-- No `shared_ptr` to the `udp_multiplexer_impl` is left here. -/
def Unowned (p : Port) : Prop :=
  p.alive = true ∧ p.multiplexer.flushing = none ∧ p.completing = [] ∧ ∀ k < p.opened, (p.states k).impl = false

instance (p : Port) : Decidable p.Unowned := inferInstanceAs (Decidable (_ ∧ _ ∧ _ ∧ ∀ k < p.opened, _))

/-- What can happen in `p`. A caller passes endpoint objects that are there. A
receive outstanding when the multiplexer goes completes all the same. -/
def Enabled (p : Port) : Event → Prop
  | .bind => p.alive = true
  | .asyncReceiveFrom k ep _ => k < p.opened ∧ p.endpoints ep ≠ none
  | .asyncSendTo k _ dst => k < p.opened ∧ p.endpoints dst ≠ none
  | .sent s _ _ => s ∈ p.inFlight ∧ ∀ c ∈ p.completing, c.send ≠ s
  | .sendToSignal | .sentEnd => p.completing ≠ []
  | .close k => k < p.opened
  | .closeLast k => k < p.opened ∧ (p.close k).Unowned
  | .setEndpoint _ _ => True
  | .register => p.alive = true ∧ ¬ p.multiplexer.Linked .context
  | .unlink => p.alive = true
  | .received _ _ _ => p.multiplexer.udpSocket.receives ≠ [] ∧ p.multiplexer.flushing = none
  | .next => p.alive = true ∧ p.multiplexer.pending ≠ []
  | .flushed => p.alive = true ∧ p.multiplexer.flushing ≠ none ∧ p.multiplexer.pending = []
  | .destroy => p.Unowned

instance (p : Port) : (ev : Event) → Decidable (p.Enabled ev)
  | .bind => inferInstanceAs (Decidable (_ = _))
  | .asyncReceiveFrom _ _ _ => inferInstanceAs (Decidable (_ ∧ _))
  | .asyncSendTo _ _ _ => inferInstanceAs (Decidable (_ ∧ _))
  | .sent s _ _ => inferInstanceAs (Decidable (_ ∧ ∀ c ∈ p.completing, c.send ≠ s))
  | .sendToSignal | .sentEnd => inferInstanceAs (Decidable (p.completing ≠ []))
  | .close _ => inferInstanceAs (Decidable (_ < _))
  | .closeLast _ => inferInstanceAs (Decidable (_ ∧ _))
  | .setEndpoint _ _ => inferInstanceAs (Decidable True)
  | .register => inferInstanceAs (Decidable (_ ∧ ¬ _))
  | .unlink => inferInstanceAs (Decidable (_ = _))
  | .received _ _ _ => inferInstanceAs (Decidable (_ ∧ _))
  | .next => inferInstanceAs (Decidable (_ ∧ _))
  | .flushed => inferInstanceAs (Decidable (_ ∧ _ ∧ _))
  | .destroy => inferInstanceAs (Decidable p.Unowned)

def step (p : Port) : Event → Except Fault Port
  | .bind => .ok p.bind
  | .asyncReceiveFrom k ep buffers => p.asyncReceiveFrom k ep buffers
  | .asyncSendTo k buffers dst => .ok (p.asyncSendTo k buffers dst)
  | .sent s ec size => .ok (p.sendCompleted s ec size)
  | .sendToSignal => p.sendToSignal
  | .sentEnd => .ok p.onSentEnd
  | .close k => .ok (p.close k)
  | .closeLast k => .ok (p.closeLast k)
  | .setEndpoint v ep => .ok { p with endpoints := Function.update p.endpoints v ep }
  | .register => do return { p with multiplexer := ← p.multiplexer.registerRecvHandler .context }
  | .unlink => .ok { p with multiplexer := p.multiplexer.unlink .context }
  | .received ec ep data => do
    -- the completion reads `_debug` before it asks whether the multiplexer is there
    Except.require (p.alive = true) .dangling
    return { p with multiplexer := ← (p.multiplexer.receiveCompleted ep data).onReceive ec data.length }
  | .next => p.flushNext
  | .flushed => do return { p with multiplexer := ← p.multiplexer.flushed }
  | .destroy => .ok { p with alive := false }

end Port

end AsioUtp
