/-
The `socket` objects of a process and the contexts they are bound in.

A `socket` is bound in one context after another: it is closed and bound
elsewhere, moved, assigned to, destroyed. A world has every `socket` object
of the process and what each holds of its own context, so a call on a
`socket` object happens in every world, and whatever else happens does in
one.
-/
import AsioUtp.Socket

namespace AsioUtp

structure Process where
  contexts : List World
  /-- The `socket` objects whose life has ended. -/
  destroyed : List Nat := []

namespace Process

/-- Contexts nobody has used yet. -/
def start (n : Nat) : Process := { contexts := List.replicate n {} }

/-- A call on a `socket` object, as each context sees it. -/
def everywhere (p : Process) (f : World → Except Fault World) : Except Fault Process := do
  return { p with contexts := ← p.contexts.mapM f }

/-- Does the `socket` have a `_socket_impl`? -/
def bound (p : Process) (v : Nat) : Bool := p.contexts.any fun w => (w.sockets v).impl.isSome

/-- `socket::bind` in context `c`. A `_multiplexer` the `socket` still has of another is let go of. -/
def bind (p : Process) (c v : Nat) : Process :=
  if p.bound v then p
  else { p with contexts := p.contexts.mapIdx fun d w => if d = c then w.bind v else w.setSocket v {} }

/-- `~socket`: `close`, and then the members. -/
def destroy (p : Process) (v : Nat) : Except Fault Process := do
  let p ← p.everywhere fun w => do return (← w.close v).setSocket v {}
  return { p with destroyed := v :: p.destroyed }

inductive Event
  | socket
  | bind (c v : Nat)
  | moveConstruct (v : Nat)
  | moveAssign (v v' : Nat)
  | close (v : Nat)
  | destroy (v : Nat)
  /-- Anything else, in context `c`. -/
  | inContext (c : Nat) (ev : World.Event)
  deriving Repr, DecidableEq

/-- Has the `socket` been constructed, and not destroyed? -/
def Live (p : Process) (v : Nat) : Prop := v ∉ p.destroyed ∧ ∀ w ∈ p.contexts, v < w.made

instance (p : Process) (v : Nat) : Decidable (p.Live v) := inferInstanceAs (Decidable (_ ∧ _))

/-- The `socket` an operation is called on. -/
def calledOn : World.Event → Option Nat
  | .asyncConnect v _ _ _ | .asyncAccept v | .asyncWriteSome v _ _ | .asyncReadSome v _ => some v
  | _ => none

/-- Is the event one of those that happen in every context? -/
def isCall : World.Event → Bool
  | .socket | .bind _ | .moveConstruct _ | .moveAssign _ _ | .close _ => true
  | _ => false

/-- An operation on a `socket` happens in the context it is bound in. -/
def CalledIn (p : Process) (c v : Nat) : Prop :=
  p.Live v ∧ ∀ d < p.contexts.length, d ≠ c → ∀ w ∈ p.contexts[d]?, (w.sockets v).impl = none

instance (p : Process) (c v : Nat) : Decidable (p.CalledIn c v) := inferInstanceAs (Decidable (_ ∧ _))

def Enabled (p : Process) : Event → Prop
  | .socket => True
  | .bind c v => p.Live v ∧ ∃ w ∈ p.contexts[c]?, w.ctx.alive = true
  | .moveConstruct v | .close v | .destroy v => p.Live v
  | .moveAssign v v' => p.Live v ∧ p.Live v'
  | .inContext c ev => isCall ev = false ∧ (∀ v ∈ calledOn ev, p.CalledIn c v) ∧ ∃ w ∈ p.contexts[c]?, w.Enabled ev

instance (p : Process) : (ev : Event) → Decidable (p.Enabled ev)
  | .socket => inferInstanceAs (Decidable True)
  | .bind _ _ => inferInstanceAs (Decidable (_ ∧ _))
  | .moveConstruct _ | .close _ | .destroy _ => inferInstanceAs (Decidable (p.Live _))
  | .moveAssign _ _ => inferInstanceAs (Decidable (_ ∧ _))
  | .inContext _ _ => inferInstanceAs (Decidable (_ ∧ _ ∧ _))

def step (p : Process) : Event → Except Fault Process
  | .socket => p.everywhere fun w => w.step .socket
  | .bind c v => .ok (p.bind c v)
  | .moveConstruct v => p.everywhere fun w => w.step (.moveConstruct v)
  | .moveAssign v v' => p.everywhere fun w => w.step (.moveAssign v v')
  | .close v => p.everywhere fun w => w.step (.close v)
  | .destroy v => p.destroy v
  | .inContext c ev =>
    match p.contexts[c]? with
    | none => .ok p
    | some w => do return { p with contexts := p.contexts.set c (← w.step ev) }

end Process

end AsioUtp
