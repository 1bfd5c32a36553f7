/-
`service` and everything that refers to a `udp_multiplexer_impl`: the
`udp_multiplexer` objects through their states, the `socket` objects through
their `_multiplexer`, and the service of each execution context by the
endpoint the multiplexer is bound to.

An execution context is named by a number, and an executor by its context.
What the operating system answers to `open` and `bind` is in the event. Of a `socket`
only what it refers to is here; the library's own closes, which take
`_socket_impl` from their owner and leave `_multiplexer`, are an event.

`~udp_multiplexer_impl` is a step of its own: the last reference is let go
of in one step, the destructor runs in the next, and nothing else happens in
between.
-/
import AsioUtp.UdpMultiplexer

namespace AsioUtp

namespace Hub

/-- A `udp_multiplexer_impl`; those not made yet have a dead port. -/
structure Impl where
  /-- The service whose `maybe_create_udp_multiplexer` made it; none if its socket was supplied. -/
  creator : Option Nat := none
  /-- `_udp_socket->get_executor().context()`. -/
  context : Nat := 0
  /-- `local_endpoint()`. -/
  endpoint : Endpoint := default
  port : Port := { alive := false }

/-- A `udp_multiplexer`: the context of `_ex`, and `_state` by the multiplexer it was made on. -/
structure UdpMultiplexer where
  ex : Option Nat := none
  state : Option (Nat × Nat) := none
  deriving Repr, DecidableEq

/-- A `socket`: the contexts of `_ex` and of `_service`, whether it has a
`_socket_impl`, and its `_multiplexer`. -/
structure Socket where
  ex : Nat
  service : Nat
  impl : Bool := false
  multiplexer : Option Nat := none
  deriving Repr, DecidableEq

/-- Without `_socket_impl` and `_multiplexer`. -/
def Socket.unbound (x : Socket) : Socket := { x with impl := false, multiplexer := none }

/-- What making a UDP socket comes to: `open` throws, or `bind` answers its error or the local
endpoint. -/
inductive Bound
  | thrown
  | failed (ec : ErrorCode)
  | at (ep : Endpoint)
  deriving Repr, DecidableEq

end Hub

structure Hub where
  impls : Nat → Hub.Impl := fun _ => {}
  /-- The multiplexers made so far are those below `created`. -/
  created : Nat := 0
  /-- `_multiplexers` of the service of each execution context. -/
  services : Nat → Endpoint → Option Nat := fun _ _ => none
  /-- The `udp_multiplexer` objects alive. -/
  multiplexers : Nat → Option Hub.UdpMultiplexer := fun _ => none
  madeMultiplexers : Nat := 0
  /-- The `socket` objects alive. -/
  sockets : Nat → Option Hub.Socket := fun _ => none
  madeSockets : Nat := 0
  /-- The endpoint objects of the callers, as long as they live. -/
  endpoints : Nat → Option Endpoint := fun _ => none
  /-- Handlers of calls on a `udp_multiplexer` without a state. -/
  refused : List Posted := []
  /-- The `error_code` the running call has by reference. -/
  ec : ErrorCode := .success

namespace Hub

def port (h : Hub) (m : Nat) : Port := (h.impls m).port

/-- The state a `udp_multiplexer` owns. -/
def stateOf (h : Hub) (o : Nat) : Option (Nat × Nat) := (h.multiplexers o).bind UdpMultiplexer.state

/-- The multiplexer a `socket` refers to. -/
def multiplexerOf (h : Hub) (v : Nat) : Option Nat := (h.sockets v).bind Socket.multiplexer

def setPort (h : Hub) (m : Nat) (p : Port) : Hub :=
  { h with impls := Function.update h.impls m { h.impls m with port := p } }

def setMultiplexer (h : Hub) (o : Nat) (x : Option UdpMultiplexer) : Hub :=
  { h with multiplexers := Function.update h.multiplexers o x }

def setSocket (h : Hub) (v : Nat) (x : Option Socket) : Hub :=
  { h with sockets := Function.update h.sockets v x }

def setEntry (h : Hub) (s : Nat) (ep : Endpoint) (m : Option Nat) : Hub :=
  { h with services := Function.update h.services s (Function.update (h.services s) ep m) }

def create (h : Hub) (i : Impl) : Hub :=
  { h with impls := Function.update h.impls h.created i, created := h.created + 1 }

/-! ## service -/

/-- `service::maybe_create_udp_multiplexer` of service `s`, for an executor of context `c`; it leaves
by an exception if `open` does. -/
def maybeCreateUdpMultiplexer (h : Hub) (s c : Nat) (ep : Endpoint) (reply : Bound) : Option (Hub × Option Nat) :=
  match h.services s ep with
  | some m => some (h, if (h.port m).alive then some m else none)
  | none =>
    match reply with
    | .thrown => none
    | .failed ec => some ({ h with ec }, none)
    | .at ep =>
      let m := h.created
      let h := { h with ec := .success }.create { creator := some s, context := c, endpoint := ep, port := {} }
      some (h.setEntry s ep (some m), some m)

/-- `~udp_multiplexer_impl`: out of the service of its socket's executor, whoever made it. -/
def release (h : Hub) (m : Nat) : Hub :=
  (h.setPort m { h.port m with alive := false }).setEntry (h.impls m).context (h.impls m).endpoint none

/-! ## udp_multiplexer -/

/-- A new state on multiplexer `m`, owned by `o`. -/
def attach (h : Hub) (o : Nat) (ex : Option Nat) (m : Nat) : Hub :=
  (h.setPort m (h.port m).bind).setMultiplexer o (some ⟨ex, some (m, (h.port m).opened)⟩)

/-- A new state whose `impl` is null, owned by `o`. -/
def attachNull (h : Hub) (o : Nat) (ex : Option Nat) : Hub :=
  let p : Port := { alive := false, opened := 1 }
  (h.create { port := p.setState 0 { handler := true, owned := true } }).setMultiplexer o
    (some ⟨ex, some (h.created, 0)⟩)

/-- `_state` is overwritten: the owner lets go of the state without closing it. -/
def abandon (h : Hub) (o : Nat) : Hub :=
  match h.stateOf o with
  | none => h
  | some (m, k) =>
    let p := h.port m
    h.setPort m ((p.setState k { p.states k with owned := false }).release k)

/-- `udp_multiplexer()` and `udp_multiplexer(executor)`. -/
def construct (h : Hub) (ex : Option Nat) : Hub :=
  { h with madeMultiplexers := h.madeMultiplexers + 1 }.setMultiplexer h.madeMultiplexers (some { ex })

/-- `udp_multiplexer(const udp_multiplexer&)`. -/
def copyConstruct (h : Hub) (o : Nat) : Except Fault Hub :=
  match h.multiplexers o with
  | none => .error .dangling
  | some ⟨_, none⟩ => .error (.assertion .copyState)
  | some ⟨ex, some (m, k)⟩ => do
    Except.require (((h.port m).states k).impl = true) (.assertion .copyImpl)
    return { h with madeMultiplexers := h.madeMultiplexers + 1 }.attach h.madeMultiplexers ex m

/-- `udp_multiplexer(udp_multiplexer&&)`, defaulted. -/
def moveConstruct (h : Hub) (o : Nat) : Hub :=
  ({ h with madeMultiplexers := h.madeMultiplexers + 1 }.setMultiplexer h.madeMultiplexers
    (h.multiplexers o)).setMultiplexer o (some {})

/-- `operator=(udp_multiplexer&&)`, defaulted. -/
def moveAssign (h : Hub) (o o' : Nat) : Hub :=
  if o = o' then h
  else ((h.abandon o).setMultiplexer o (h.multiplexers o')).setMultiplexer o' (some {})

/-- `close`. -/
def close (h : Hub) (o : Nat) : Hub :=
  match h.multiplexers o with
  | some ⟨ex, some (m, k)⟩ => (h.setPort m ((h.port m).close k)).setMultiplexer o (some ⟨ex, none⟩)
  | _ => { h with ec := .badDescriptor }

/-- `~udp_multiplexer`: `close`, with an `error_code` of its own. -/
def destroy (h : Hub) (o : Nat) : Hub := { (h.close o).setMultiplexer o none with ec := h.ec }

/-- `operator=(const udp_multiplexer&)`: a copy is made, moved from and destroyed. -/
def copyAssign (h : Hub) (o o' : Nat) : Except Fault Hub := do
  let h' ← h.copyConstruct o'
  return (h'.moveAssign o h.madeMultiplexers).destroy h.madeMultiplexers

/-- `bind(endpoint)`. Without an executor `_ex.context()` throws; an exception leaves everything,
and the caller's code, as it was. -/
def bindEndpoint (h : Hub) (o : Nat) (ep : Endpoint) (reply : Bound) : Except Fault Hub := do
  Except.require (h.stateOf o = none) (.assertion .bindState)
  match (h.multiplexers o).bind UdpMultiplexer.ex with
  | none => return h
  | some c =>
    match h.maybeCreateUdpMultiplexer c c ep reply with
    | none => return h
    | some (h, m) =>
      if h.ec.isError then return h
      else
        match m with
        | none => return h.attachNull o (some c)
        | some m => return h.attach o (some c) m

/-- `bind(abstract_udp_socket)`: the socket has an executor of context `c` and reports `ep`. -/
def bindSocket (h : Hub) (o c : Nat) (ep : Endpoint) : Except Fault Hub := do
  Except.require (h.stateOf o = none) (.assertion .bindState)
  let ex := (h.multiplexers o).bind UdpMultiplexer.ex
  return (h.create { context := c, endpoint := ep, port := {} }).attach o ex h.created

/-- `bind(const udp_multiplexer&)`. -/
def bindMultiplexer (h : Hub) (o o' : Nat) : Except Fault Hub :=
  (if (h.stateOf o).isSome then { h.close o with ec := h.ec } else h).copyAssign o o'

/-- A call of a port's function; the callers' endpoint objects are the same for every port. -/
def onPort (h : Hub) (m : Nat) (f : Port → Except Fault Port) : Except Fault Hub := do
  let p ← f { h.port m with endpoints := h.endpoints }
  return { h.setPort m p with endpoints := p.endpoints }

/-- A call on a `udp_multiplexer` without a state. -/
def refuse (h : Hub) : Hub := { h with refused := h.refused ++ [⟨h.refused.length, .badDescriptor, 0⟩] }

/-- `async_receive_from`. A state without `impl` has no receive pending, so the assertion of
`do_receive` never comes before the null pointer is followed. -/
def asyncReceiveFrom (h : Hub) (o ep : Nat) (buffers : List (List UInt8)) : Except Fault Hub :=
  match h.stateOf o with
  | none => .ok h.refuse
  | some (m, k) => do
    Except.require (((h.port m).states k).impl = true) .nullPointer
    h.onPort m fun p => p.asyncReceiveFrom k ep buffers

/-- `async_send_to`. -/
def asyncSendTo (h : Hub) (o : Nat) (buffers : List (List UInt8)) (dst : Nat) : Except Fault Hub :=
  match h.stateOf o with
  | none => .ok h.refuse
  | some (m, k) => do
    Except.require (((h.port m).states k).impl = true) .nullPointer
    h.onPort m fun p => .ok (p.asyncSendTo k buffers dst)

/-! ## socket -/

/-- `socket(executor)`. -/
def socket (h : Hub) (c : Nat) : Hub :=
  { h with madeSockets := h.madeSockets + 1 }.setSocket h.madeSockets (some { ex := c, service := c })

/-- `socket(socket&&)`. -/
def socketMoveConstruct (h : Hub) (v : Nat) : Hub :=
  ({ h with madeSockets := h.madeSockets + 1 }.setSocket h.madeSockets (h.sockets v)).setSocket v
    ((h.sockets v).map Socket.unbound)

/-- `socket::close`. -/
def socketClose (h : Hub) (v : Nat) : Hub :=
  match h.sockets v with
  | none => h
  | some x => if x.impl then h.setSocket v (some x.unbound) else h

/-- `~socket`. -/
def socketDestroy (h : Hub) (v : Nat) : Hub := (h.socketClose v).setSocket v none

/-- `operator=(socket&&)`: `_service` stays, and the assertion reads the
`_socket_impl` that has just been moved from. -/
def socketMoveAssign (h : Hub) (v v' : Nat) : Except Fault Hub :=
  let h := h.socketClose v
  match h.sockets v, h.sockets v' with
  | some x, some y =>
    if v = v' then .ok h
    else if y.impl then .error .nullPointer
    else
      .ok ((h.setSocket v (some { x with ex := y.ex, impl := false, multiplexer := y.multiplexer })).setSocket v'
        (some { y with multiplexer := none }))
  | _, _ => .error .dangling

/-- `socket::bind(endpoint)`. -/
def socketBind (h : Hub) (v : Nat) (ep : Endpoint) (reply : Bound) : Except Fault Hub :=
  match h.sockets v with
  | none => .error .dangling
  | some x =>
    if x.impl then .ok { h with ec := .alreadyOpen }
    else
      match h.maybeCreateUdpMultiplexer x.service x.ex ep reply with
      | none => .ok h
      | some (h, m) =>
        if h.ec.isError then .ok h
        else
          match m with
          | none => .error .nullPointer
          | some m => .ok (h.setSocket v (some { x with impl := true, multiplexer := some m }))

/-- `socket::bind(udp_multiplexer)`. -/
def socketBindMultiplexer (h : Hub) (v o : Nat) : Except Fault Hub :=
  match h.sockets v with
  | none => .error .dangling
  | some x =>
    if x.impl then .ok { h with ec := .alreadyOpen }
    else
      match h.stateOf o with
      | none => .error (.assertion .implState)
      | some (m, k) => do
        Except.require (((h.port m).states k).impl = true) .nullPointer
        return h.setSocket v (some { x with impl := true, multiplexer := some m })

/-- `close_with_error` takes the `_socket_impl` from its owner. -/
def libraryClose (h : Hub) (v : Nat) : Hub :=
  h.setSocket v ((h.sockets v).map fun x : Socket => { x with impl := false })

/-! ## The hub as a machine -/

inductive Event
  | construct (ex : Option Nat)
  | copyConstruct (o : Nat)
  | moveConstruct (o : Nat)
  | copyAssign (o o' : Nat)
  | moveAssign (o o' : Nat)
  | bindEndpoint (o : Nat) (ep : Endpoint) (ec : ErrorCode) (reply : Bound)
  | bindSocket (o c : Nat) (ep : Endpoint)
  | bindMultiplexer (o o' : Nat)
  | asyncReceiveFrom (o ep : Nat) (buffers : List (List UInt8))
  | asyncSendTo (o : Nat) (buffers : List (List UInt8)) (dst : Nat)
  | close (o : Nat) (ec : ErrorCode)
  | destroy (o : Nat)
  | socket (c : Nat)
  | socketBind (v : Nat) (ep : Endpoint) (ec : ErrorCode) (reply : Bound)
  | socketBindMultiplexer (v o : Nat) (ec : ErrorCode)
  | socketMoveConstruct (v : Nat)
  | socketMoveAssign (v v' : Nat)
  | socketClose (v : Nat)
  | socketDestroy (v : Nat)
  | libraryClose (v : Nat)
  /-- A caller assigns an endpoint object, or its life ends. -/
  | setEndpoint (e : Nat) (ep : Option Endpoint)
  /-- A completion at one port, or its context starting or stopping to receive. -/
  | inPort (m : Nat) (ev : Port.Event)
  /-- A supplied socket reports another local endpoint from now on. -/
  | report (m : Nat) (ep : Endpoint)
  /-- The last reference to a multiplexer is gone, and its destructor runs. -/
  | release (m : Nat)
  deriving Repr, DecidableEq

/-- No `shared_ptr` to multiplexer `m` is left: no state, no completion that
is being handled and no `socket` has one. -/
def Unreferenced (h : Hub) (m : Nat) : Prop :=
  (h.port m).Enabled .destroy ∧ ∀ v < h.madeSockets, h.multiplexerOf v ≠ some m

instance (h : Hub) (m : Nat) : Decidable (h.Unreferenced m) := inferInstanceAs (Decidable (_ ∧ _))

/-- Every destructor that is due has run. -/
def Settled (h : Hub) : Prop := ∀ m < h.created, ¬ h.Unreferenced m

instance (h : Hub) : Decidable h.Settled := inferInstanceAs (Decidable (∀ m < h.created, _))

/-- The operating system binds no two sockets of a service to one endpoint
while both are open. -/
def Answers (h : Hub) (s : Nat) : Bound → Prop
  | .thrown => True
  | .failed ec => ec.isError = true
  | .at ep => ∀ m < h.created, (h.port m).alive = true → (h.impls m).creator = some s → (h.impls m).endpoint ≠ ep

instance (h : Hub) (s : Nat) : (reply : Bound) → Decidable (h.Answers s reply)
  | .thrown => inferInstanceAs (Decidable True)
  | .failed _ => inferInstanceAs (Decidable (_ = _))
  | .at _ => inferInstanceAs (Decidable (∀ m < h.created, _))

def Live (h : Hub) (o : Nat) : Prop := (h.multiplexers o).isSome = true

instance (h : Hub) (o : Nat) : Decidable (h.Live o) := inferInstanceAs (Decidable (_ = _))

def LiveSocket (h : Hub) (v : Nat) : Prop := (h.sockets v).isSome = true

instance (h : Hub) (v : Nat) : Decidable (h.LiveSocket v) := inferInstanceAs (Decidable (_ = _))

/-- The events of a port that are none of its `udp_multiplexer`s' calls. -/
def isCompletion : Port.Event → Bool
  | .sent _ _ _ | .sendToSignal | .sentEnd | .register | .unlink | .received _ _ _ | .next | .flushed => true
  | _ => false

def Possible (h : Hub) : Event → Prop
  | .construct _ | .socket _ | .setEndpoint _ _ => True
  | .copyConstruct o | .moveConstruct o | .close o _ | .destroy o | .bindSocket o _ _ => h.Live o
  | .copyAssign o o' | .moveAssign o o' | .bindMultiplexer o o' => h.Live o ∧ h.Live o'
  | .bindEndpoint o _ _ reply => h.Live o ∧ ∀ c ∈ (h.multiplexers o).bind UdpMultiplexer.ex, h.Answers c reply
  | .asyncReceiveFrom o ep _ => h.Live o ∧ h.endpoints ep ≠ none
  | .asyncSendTo o _ dst => h.Live o ∧ h.endpoints dst ≠ none
  | .socketBind v _ _ reply => h.LiveSocket v ∧ ∀ x ∈ h.sockets v, h.Answers x.service reply
  | .socketBindMultiplexer v o _ => h.LiveSocket v ∧ h.Live o
  | .socketMoveConstruct v | .socketClose v | .socketDestroy v => h.LiveSocket v
  | .socketMoveAssign v v' => h.LiveSocket v ∧ h.LiveSocket v'
  | .libraryClose v => ∃ x ∈ h.sockets v, x.impl = true
  | .inPort m ev =>
    isCompletion ev = true ∧ ({ h.port m with endpoints := h.endpoints } : Port).Enabled ev
  | .report m _ => (h.port m).alive = true ∧ (h.impls m).creator = none
  | .release m => m < h.created ∧ h.Unreferenced m

instance (h : Hub) : (ev : Event) → Decidable (h.Possible ev)
  | .construct _ | .socket _ | .setEndpoint _ _ => inferInstanceAs (Decidable True)
  | .copyConstruct o | .moveConstruct o | .close o _ | .destroy o | .bindSocket o _ _ =>
    inferInstanceAs (Decidable (h.Live o))
  | .copyAssign _ _ | .moveAssign _ _ | .bindMultiplexer _ _ => inferInstanceAs (Decidable (_ ∧ _))
  | .bindEndpoint _ _ _ _ => inferInstanceAs (Decidable (_ ∧ ∀ c ∈ _, _))
  | .asyncReceiveFrom _ _ _ => inferInstanceAs (Decidable (_ ∧ _))
  | .asyncSendTo _ _ _ => inferInstanceAs (Decidable (_ ∧ _))
  | .socketBind _ _ _ _ => inferInstanceAs (Decidable (_ ∧ ∀ c ∈ _, _))
  | .socketBindMultiplexer _ _ _ => inferInstanceAs (Decidable (_ ∧ _))
  | .socketMoveConstruct v | .socketClose v | .socketDestroy v => inferInstanceAs (Decidable (h.LiveSocket v))
  | .socketMoveAssign _ _ => inferInstanceAs (Decidable (_ ∧ _))
  | .libraryClose v => inferInstanceAs (Decidable (∃ x ∈ h.sockets v, x.impl = true))
  | .inPort _ _ => inferInstanceAs (Decidable (_ ∧ _))
  | .report _ _ => inferInstanceAs (Decidable (_ ∧ _))
  | .release _ => inferInstanceAs (Decidable (_ ∧ _))

def isRelease : Event → Bool
  | .release _ => true
  | _ => false

/-- What can happen in `h`; a destructor that is due comes before anything else. -/
def Enabled (h : Hub) (ev : Event) : Prop := h.Possible ev ∧ (h.Settled ∨ isRelease ev = true)

instance (h : Hub) (ev : Event) : Decidable (h.Enabled ev) := inferInstanceAs (Decidable (_ ∧ _))

def step (h : Hub) : Event → Except Fault Hub
  | .construct ex => .ok (h.construct ex)
  | .copyConstruct o => h.copyConstruct o
  | .moveConstruct o => .ok (h.moveConstruct o)
  | .copyAssign o o' => h.copyAssign o o'
  | .moveAssign o o' => .ok (h.moveAssign o o')
  | .bindEndpoint o ep ec reply => { h with ec }.bindEndpoint o ep reply
  | .bindSocket o c ep => h.bindSocket o c ep
  | .bindMultiplexer o o' => h.bindMultiplexer o o'
  | .asyncReceiveFrom o ep buffers => h.asyncReceiveFrom o ep buffers
  | .asyncSendTo o buffers dst => h.asyncSendTo o buffers dst
  | .close o ec => .ok ({ h with ec }.close o)
  | .destroy o => .ok (h.destroy o)
  | .socket c => .ok (h.socket c)
  | .socketBind v ep ec reply => { h with ec }.socketBind v ep reply
  | .socketBindMultiplexer v o ec => { h with ec }.socketBindMultiplexer v o
  | .socketMoveConstruct v => .ok (h.socketMoveConstruct v)
  | .socketMoveAssign v v' => h.socketMoveAssign v v'
  | .socketClose v => .ok (h.socketClose v)
  | .socketDestroy v => .ok (h.socketDestroy v)
  | .libraryClose v => .ok (h.libraryClose v)
  | .setEndpoint e ep => .ok { h with endpoints := Function.update h.endpoints e ep }
  | .inPort m ev => h.onPort m fun p => p.step ev
  | .report m ep => .ok { h with impls := Function.update h.impls m { h.impls m with endpoint := ep } }
  | .release m => .ok (h.release m)

end Hub

end AsioUtp
