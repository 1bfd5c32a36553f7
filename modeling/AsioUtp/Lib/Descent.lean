/-
Machines that come to their end: every event that is admitted is taken, and
takes something off a measure.
-/
import AsioUtp.Lib.Machine

namespace Machine

variable {σ ε φ : Type} {ok : σ → ε → Prop} {step : σ → ε → Except φ σ} {I : σ → Prop} {μ : σ → Nat}

/-- Where `I` holds, an admitted event does not fault, keeps `I` and lowers `μ`. -/
def Descends (ok : σ → ε → Prop) (step : σ → ε → Except φ σ) (I : σ → Prop) (μ : σ → Nat) : Prop :=
  ∀ s e, I s → ok s e → ∃ s', step s e = .ok s' ∧ I s' ∧ μ s' < μ s

/-- What a run keeps, and how long it can be. -/
theorem Descends.run (h : Descends ok step I μ) {s s' : σ} {es : List ε} (hr : Run ok step s es s') (hs : I s) :
    I s' ∧ es.length + μ s' ≤ μ s := by
  induction hr with
  | nil => exact ⟨hs, by simp⟩
  | @cons s e s₁ es s' hok hstep _ ih =>
    obtain ⟨s₂, hstep', hI, hlt⟩ := h s e hs hok
    rw [hstep] at hstep'
    cases hstep'
    obtain ⟨hI', hle⟩ := ih hI
    refine ⟨hI', ?_⟩
    rw [List.length_cons]
    omega

/-- The run under another admission that `I` makes good for. -/
theorem Descends.admitted {ok' : σ → ε → Prop} (h : Descends ok step I μ) (hle : ∀ s e, I s → ok s e → ok' s e)
    {s s' : σ} {es : List ε} (hr : Run ok step s es s') (hs : I s) : Run ok' step s es s' := by
  induction hr with
  | nil => exact .nil
  | @cons s e s₁ es s' hok hstep _ ih =>
    obtain ⟨s₂, hstep', hI, -⟩ := h s e hs hok
    rw [hstep] at hstep'
    cases hstep'
    exact .cons (hle s e hs hok) hstep (ih hI)

/-- There is a run to a state in which nothing is left to do. -/
theorem Descends.ends (h : Descends ok step I μ) {s : σ} (hs : I s) :
    ∃ es s', Run ok step s es s' ∧ ∀ e, ¬ ok s' e := by
  generalize hn : μ s = n
  induction n using Nat.strongRecOn generalizing s with
  | ind n ih =>
    by_cases hdone : ∀ e, ¬ ok s e
    · exact ⟨[], s, .nil, hdone⟩
    · obtain ⟨e, hok⟩ := not_forall_not.1 hdone
      obtain ⟨s₁, hstep, hI, hlt⟩ := h s e hs hok
      obtain ⟨es, s', hr, hend⟩ := ih (μ s₁) (hn ▸ hlt) hI rfl
      exact ⟨e :: es, s', .cons hok hstep hr, hend⟩

end Machine
