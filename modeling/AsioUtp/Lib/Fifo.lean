/-
First in, first out.

The queue as a machine: something is given to it, at the back, or taken from
it, at the front. In every run what was taken, then what is in the queue, is
what was there at the start, then what was given (`run_content`): nothing is
lost, duplicated or overtaken.
-/
import AsioUtp.Lib.Machine
import Mathlib.Data.List.Infix

namespace Fifo

open Machine

variable {α : Type}

inductive Event (α : Type)
  | give (as : List α)
  | take (as : List α)
  deriving Repr, DecidableEq

/-- Only what stands at the front can be taken. -/
def Enabled (q : List α) : Event α → Prop
  | .give _ => True
  | .take as => as <+: q

def step (q : List α) : Event α → Except Empty (List α)
  | .give as => .ok (q ++ as)
  | .take as => .ok (q.drop as.length)

def Event.given : Event α → List α
  | .give as => as
  | .take _ => []

def Event.taken : Event α → List α
  | .give _ => []
  | .take as => as

def given (evs : List (Event α)) : List α := evs.flatMap Event.given

def taken (evs : List (Event α)) : List α := evs.flatMap Event.taken

theorem step_content {q q' : List α} {ev : Event α} (hen : Enabled q ev)
    (hs : step q ev = .ok q') : ev.taken ++ q' = q ++ ev.given := by
  cases ev with
  | give as =>
    cases hs
    rfl
  | take as =>
    cases hs
    obtain ⟨rest, rfl⟩ := hen
    simp [Event.taken, Event.given]

/-- **What was taken and what is left is what was given.** -/
theorem run_content {q q' : List α} {evs : List (Event α)} (h : Run Enabled step q evs q') :
    taken evs ++ q' = q ++ given evs := by
  induction h with
  | nil => simp [taken, given]
  | cons hen hs _ ih =>
    have hstep := step_content hen hs
    simp only [taken, given, List.flatMap_cons, List.append_assoc] at ih ⊢
    rw [ih, ← List.append_assoc, hstep, List.append_assoc]

end Fifo
