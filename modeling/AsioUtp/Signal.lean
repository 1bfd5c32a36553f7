/-
`Signal` and its `Connection`s.

A `Connection` is two things at once: the holder of a slot and a node of the
signal's intrusive list. Moving one takes the slot with `std::move` and the
node with `swap_nodes`, and the moved-from object keeps whatever the two left
it with. The list is modelled by the numbers of the objects linked, so that
an exchange of two nodes, linked or not, is an exchange of two numbers.

The slots are of any type `σ`; an empty `std::function` is `none`. What a
`std::function` holds after it was moved from is not said by the standard and
is a parameter here (`MovedFrom`).
-/
import AsioUtp.Error
import Mathlib.Logic.Equiv.Basic

namespace AsioUtp

/-- What a `std::function` that held `f` holds after a move assignment from it. -/
structure MovedFrom (σ : Type) where
  /-- It was moved into another one. -/
  other : σ → Option σ
  /-- It was moved into itself. -/
  self : σ → Option σ

/-- The choice of libstdc++: moved from is empty, moved into itself is unchanged. -/
def MovedFrom.libstdcxx (σ : Type) : MovedFrom σ := ⟨fun _ => none, some⟩

/-- A `Signal` and the `Connection` objects of the program. -/
structure Signal (σ : Type) where
  /-- `_connections`: the objects linked, in order. -/
  connections : List Nat := []
  /-- The `_slot` of each object that is alive. -/
  objects : Nat → Option (Option σ) := fun _ => none
  /-- The next object's number. -/
  made : Nat := 0

namespace Signal

variable {σ : Type}

/-- `_slot` of the object `c`. -/
def slot (s : Signal σ) (c : Nat) : Option σ := (s.objects c).join

def Alive (s : Signal σ) (c : Nat) : Prop := (s.objects c).isSome

instance (s : Signal σ) (c : Nat) : Decidable (s.Alive c) :=
  inferInstanceAs (Decidable ((s.objects c).isSome = true))

def setSlot (s : Signal σ) (c : Nat) (f : Option σ) : Signal σ :=
  { s with objects := Function.update s.objects c (some f) }

/-- `swap_nodes`: the two hooks exchange their places in the list, or out of it. -/
def swapNodes (s : Signal σ) (c c' : Nat) : Signal σ :=
  { s with connections := s.connections.map (Equiv.swap c c') }

/-- `_slot = std::move(other._slot)`. -/
def moveSlot (std : MovedFrom σ) (s : Signal σ) (c c' : Nat) : Signal σ :=
  if c = c' then s.setSlot c ((s.slot c).bind std.self)
  else (s.setSlot c (s.slot c')).setSlot c' ((s.slot c').bind std.other)

/-- `Connection()`. -/
def construct (s : Signal σ) : Signal σ := { s.setSlot s.made none with made := s.made + 1 }

/-- `connect(slot)`; the object returned is the local one (moved out of it, with the local one
destroyed, it would only have another number). -/
def connect (s : Signal σ) (f : Option σ) : Signal σ :=
  { s.setSlot s.made f with connections := s.connections ++ [s.made], made := s.made + 1 }

/-- `Connection(Connection&& other)`. -/
def moveConstruct (std : MovedFrom σ) (s : Signal σ) (c : Nat) : Signal σ :=
  (s.construct.moveSlot std s.made c).swapNodes c s.made

/-- `operator=(Connection&& other)` of `c` from `c'`. -/
def moveAssign (std : MovedFrom σ) (s : Signal σ) (c c' : Nat) : Signal σ :=
  (s.moveSlot std c c').swapNodes c' c

/-- `~Connection()`: the auto-unlink hook leaves its list. -/
def destroy (s : Signal σ) (c : Nat) : Signal σ :=
  { s with
    connections := s.connections.filter (· ≠ c)
    objects := Function.update s.objects c none }

/-- `operator()`: the slots called, in order. An empty one throws `bad_function_call`. -/
def call (s : Signal σ) : Except Fault (List σ) :=
  s.connections.mapM fun c =>
    match s.slot c with
    | some f => .ok f
    | none => .error (.assertion .signalCall)

/-- What a program can do with the connections of one signal. -/
inductive Event (σ : Type)
  | construct
  | connect (f : Option σ)
  | moveConstruct (c : Nat)
  | moveAssign (c c' : Nat)
  /-- The assignment is from a temporary, such as what `connect` returns: `c'` goes with it. -/
  | moveAssignTemporary (c c' : Nat)
  | destroy (c : Nat)
  deriving Repr, DecidableEq

/-- The objects an event names are alive. -/
def Enabled (s : Signal σ) : Event σ → Prop
  | .construct => True
  | .connect _ => True
  | .moveConstruct c => s.Alive c
  | .moveAssign c c' => s.Alive c ∧ s.Alive c'
  | .moveAssignTemporary c c' => s.Alive c ∧ s.Alive c' ∧ c ≠ c'
  | .destroy c => s.Alive c

instance (s : Signal σ) : (ev : Event σ) → Decidable (s.Enabled ev)
  | .construct | .connect _ => inferInstanceAs (Decidable True)
  | .moveConstruct _ | .destroy _ => inferInstanceAs (Decidable (s.Alive _))
  | .moveAssign _ _ => inferInstanceAs (Decidable (_ ∧ _))
  | .moveAssignTemporary _ _ => inferInstanceAs (Decidable (_ ∧ _ ∧ _))

def step (std : MovedFrom σ) (s : Signal σ) : Event σ → Signal σ
  | .construct => s.construct
  | .connect f => s.connect f
  | .moveConstruct c => s.moveConstruct std c
  | .moveAssign c c' => s.moveAssign std c c'
  | .moveAssignTemporary c c' => (s.moveAssign std c c').destroy c'
  | .destroy c => s.destroy c

end Signal

end AsioUtp
