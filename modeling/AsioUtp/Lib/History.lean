/-
What has happened in a run, recorded beside it, and runs that follow runs.

`record note` adds up what the steps of a run note. An invariant that speaks
of the past is one of the state and the record (`Run.recorded`). A machine
follows another when every step can be answered by a run of it
(`Run.simulated`); the events of that run are then the record of what the
steps were answered with.
-/
import AsioUtp.Lib.Machine

namespace Machine

variable {σ ε φ η : Type} {ok : σ → ε → Prop} {step : σ → ε → Except φ σ}

theorem Run.single {s s' : σ} {e : ε} (hok : ok s e) (h : step s e = .ok s') : Run ok step s [e] s' := .cons hok h .nil

theorem Run.of_nil {s s' : σ} (h : Run ok step s [] s') : s' = s := by
  cases h
  rfl

theorem Run.of_single {s s' : σ} {e : ε} (h : Run ok step s [e] s') : step s e = .ok s' := by
  cases h with
  | cons _ hs hrest =>
    rw [hrest.of_nil]
    exact hs

/-- What the events `es` leave in the record, taken from `s` with `h` recorded before. -/
def record (step : σ → ε → Except φ σ) (note : σ → ε → σ → η → η) (s : σ) (h : η) : List ε → η
  | [] => h
  | e :: es =>
    match step s e with
    | .ok s' => record step note s' (note s e s' h) es
    | .error _ => h

variable {note : σ → ε → σ → η → η}

theorem Run.record_append {s s' : σ} {h : η} {es : List ε} (hr : Run ok step s es s') (es' : List ε) :
    record step note s h (es ++ es') = record step note s' (record step note s h es) es' := by
  induction hr generalizing h with
  | nil => rfl
  | cons _ hstep _ ih =>
    rw [List.cons_append, record, record, hstep]
    exact ih

/-- What the start satisfies with its record, and every step keeps, the end satisfies. -/
theorem Run.recorded (I : σ → η → Prop)
    (keep : ∀ s h e s', I s h → ok s e → step s e = .ok s' → I s' (note s e s' h))
    {s s' : σ} {h : η} {es : List ε} (hr : Run ok step s es s') (hs : I s h) : I s' (record step note s h es) := by
  induction hr generalizing h with
  | nil => exact hs
  | cons hok hstep _ ih =>
    rw [record, hstep]
    exact ih (keep _ _ _ _ hs hok hstep)

/-! ## Simulation -/

variable {τ δ ψ : Type} {ok' : τ → δ → Prop} {step' : τ → δ → Except ψ τ}

/-- The events `answer` gives for the steps of a run, one after the other. -/
def answers (step : σ → ε → Except φ σ) (answer : σ → ε → σ → List δ) (s : σ) : List ε → List δ
  | [] => []
  | e :: es =>
    match step s e with
    | .ok s' => answer s e s' ++ answers step answer s' es
    | .error _ => []

/-- What holds at the end of a run and goes back over every step held at its start. -/
theorem Run.back (I P : σ → Prop) (keep : ∀ s e s', I s → ok s e → step s e = .ok s' → I s')
    (back : ∀ s e s', I s → ok s e → step s e = .ok s' → P s' → P s) {s s' : σ} {es : List ε}
    (hr : Run ok step s es s') (hs : I s) (hs' : P s') : P s := by
  induction hr with
  | nil => exact hs'
  | cons hok hstep _ ih => exact back _ _ _ hs hok hstep (ih (keep _ _ _ hs hok hstep) hs')

/-- **A simulation, step by step, is one of whole runs.** The steps are those between states of `I` of which `P` holds;
`I` is kept, and `P` goes back, so that it is enough to have it at the end. -/
theorem Run.simulated (I P : σ → Prop) (keep : ∀ s e s', I s → ok s e → step s e = .ok s' → I s')
    (back : ∀ s e s', I s → ok s e → step s e = .ok s' → P s' → P s) (R : σ → τ → Prop)
    {answer : σ → ε → σ → List δ}
    (sim : ∀ s t e s', I s → P s' → R s t → ok s e → step s e = .ok s' →
      ∃ t', Run ok' step' t (answer s e s') t' ∧ R s' t')
    {s s' : σ} {t : τ} {es : List ε} (hr : Run ok step s es s') (hs : I s) (hs' : P s') (ht : R s t) :
    ∃ t', Run ok' step' t (answers step answer s es) t' ∧ R s' t' := by
  induction hr generalizing t with
  | nil => exact ⟨t, .nil, ht⟩
  | cons hok hstep hrest ih =>
    have hs₁ := keep _ _ _ hs hok hstep
    obtain ⟨t₁, hrun, ht₁⟩ := sim _ t _ _ hs (hrest.back I P keep back hs₁ hs') ht hok hstep
    obtain ⟨t', hrun', ht'⟩ := ih hs₁ hs' ht₁
    rw [answers, hstep]
    exact ⟨t', hrun.append hrun', ht'⟩

end Machine
