/-
What reference counting frees.

Objects hold one another by counted references, and some are kept from
outside: variables, queues. An object goes with the last reference to it, so
what is freed is what is not kept and is held by freed objects alone. Objects
that hold each other in a cycle are not (`not_freed`), whether or not anything
can still reach them.
-/
import Mathlib.Tactic.Basic

namespace RefCount

variable {α : Type} {kept : α → Prop} {holds : α → α → Prop}

inductive Freed (kept : α → Prop) (holds : α → α → Prop) : α → Prop
  | intro {x : α} : ¬ kept x → (∀ y, holds y x → Freed kept holds y) → Freed kept holds x

/-- Objects each of which is kept or held by another of them stay. -/
theorem not_freed (S : α → Prop) (hS : ∀ x, S x → kept x ∨ ∃ y, S y ∧ holds y x) {x : α} (hx : S x) :
    ¬ Freed kept holds x := by
  intro h
  induction h with
  | @intro x hkept _ ih =>
    rcases hS x hx with hk | ⟨y, hy, hyx⟩
    · exact hkept hk
    · exact ih y hyx hy

end RefCount
