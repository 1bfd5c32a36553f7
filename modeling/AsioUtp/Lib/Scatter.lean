/-
Copying one run of elements over a sequence of blocks.

`copy dsts src` writes `src` over the blocks of `dsts` in order, as far as
they reach, and leaves the shape of the sequence alone. Read as one run, the
sequence then starts with what was copied (`flatten_copy`, `take_copy`).
-/
import Mathlib.Data.List.Basic

namespace Scatter

variable {α : Type}

/-- `dst` with its front overwritten by what of `src` fits. -/
def overwrite (dst src : List α) : List α := src.take dst.length ++ dst.drop src.length

/-- `src` written over the blocks of `dsts`, in order. -/
def copy : List (List α) → List α → List (List α)
  | [], _ => []
  | d :: ds, src => overwrite d src :: copy ds (src.drop d.length)

/-- How many elements that copies. -/
def copied (dsts : List (List α)) (src : List α) : Nat := min dsts.flatten.length src.length

@[simp] theorem length_overwrite (dst src : List α) : (overwrite dst src).length = dst.length := by
  simp only [overwrite, List.length_append, List.length_take, List.length_drop]
  omega

@[simp] theorem overwrite_nil (dst : List α) : overwrite dst [] = dst := by simp [overwrite]

theorem take_overwrite (dst src : List α) :
    (overwrite dst src).take (min dst.length src.length) = src.take dst.length := by
  rw [overwrite, List.take_append_of_le_length (by simp)]
  rw [List.take_take, Nat.min_comm dst.length, Nat.min_assoc, Nat.min_self, List.take_eq_take_iff]
  omega

/-- Read as one run, the sequence is overwritten as one block. -/
theorem flatten_copy (dsts : List (List α)) (src : List α) :
    (copy dsts src).flatten = overwrite dsts.flatten src := by
  induction dsts generalizing src with
  | nil => simp [copy, overwrite]
  | cons d ds ih =>
    simp only [copy, List.flatten_cons, ih]
    by_cases h : src.length ≤ d.length
    · have hd : src.drop d.length = [] := List.drop_eq_nil_of_le h
      have hle : src.length ≤ (d ++ ds.flatten).length := by simp only [List.length_append]; omega
      rw [hd, overwrite_nil, overwrite, overwrite, List.take_of_length_le h, List.take_of_length_le hle,
        List.drop_append_of_le_length h, List.append_assoc]
    · simp only [overwrite, List.length_append, List.length_drop]
      rw [List.drop_eq_nil_of_le (show d.length ≤ src.length by omega), List.append_nil, ← List.append_assoc]
      congr 1
      · rw [List.take_add]
      · rw [List.drop_append, List.drop_eq_nil_of_le (show d.length ≤ src.length by omega), List.nil_append]

@[simp] theorem copy_nil (dsts : List (List α)) : copy dsts [] = dsts := by
  induction dsts with
  | nil => rfl
  | cons d ds ih => simp [copy, ih]

/-- Blocks without room stay as they are. -/
theorem copy_of_flatten_eq_nil {dsts : List (List α)} (h : dsts.flatten = []) (src : List α) :
    copy dsts src = dsts := by
  induction dsts generalizing src with
  | nil => rfl
  | cons d ds ih =>
    obtain ⟨rfl, hds⟩ := List.append_eq_nil_iff.1 h
    simp [copy, overwrite, ih hds]

/-- The front of the sequence is what was copied. -/
theorem take_copy (dsts : List (List α)) (src : List α) :
    (copy dsts src).flatten.take (copied dsts src) = src.take dsts.flatten.length := by
  rw [flatten_copy, copied, take_overwrite]

theorem length_take_copy (dsts : List (List α)) (src : List α) :
    ((copy dsts src).flatten.take (copied dsts src)).length = copied dsts src := by
  rw [take_copy, List.length_take, copied]

theorem drop_copied (dsts : List (List α)) (src : List α) :
    src.drop (copied dsts src) = src.drop dsts.flatten.length := by
  rcases Nat.le_total dsts.flatten.length src.length with h | h
  · rw [copied, Nat.min_eq_left h]
  · rw [copied, Nat.min_eq_right h, List.drop_length, List.drop_eq_nil_of_le h]

/-- What was copied, and what of the source was not. -/
theorem take_copy_append_drop (dsts : List (List α)) (src : List α) :
    (copy dsts src).flatten.take (copied dsts src) ++ src.drop (copied dsts src) = src := by
  have htake : src.take dsts.flatten.length = src.take (copied dsts src) := by
    rw [List.take_eq_take_iff, copied]
    omega
  rw [take_copy, htake, List.take_append_drop]

end Scatter
