/-
Machines that can fault: a step either answers the next state or stops with
a fault, after which there is no state at all.

`Run ok step s es s'` is a run taking the events `es` from `s` to `s'`, each
event admitted by `ok` in the state it meets; `Run.invariant` is the rule
every safety result goes through. `Traces R F s x` looks inside one step: the
computation `x`, started in `s`, only makes moves of `R`, and where it faults
it does so for a reason `F` names. An invariant of the moves then holds in
every state the computation passes through, the one it faults in included.
-/
import Mathlib.Data.List.Forall2
import Mathlib.Logic.Relation

/-! ## Computations with faults -/

namespace Except

variable {φ α β : Type}

theorem bind_ok_iff {x : Except φ α} {f : α → Except φ β} {b : β} :
    (x >>= f) = .ok b ↔ ∃ a, x = .ok a ∧ f a = .ok b := by
  cases x <;> simp [bind, Except.bind]

theorem bind_error_iff {x : Except φ α} {f : α → Except φ β} {e : φ} :
    (x >>= f) = .error e ↔ x = .error e ∨ ∃ a, x = .ok a ∧ f a = .error e := by
  cases x <;> simp [bind, Except.bind]

theorem pure_ok_iff {a b : α} : (pure a : Except φ α) = .ok b ↔ a = b := by
  simp [pure, Except.pure]

@[simp] theorem ok_bind {a : α} {f : α → Except φ β} : (Except.ok a >>= f) = f a := rfl

@[simp] theorem error_bind {e : φ} {f : α → Except φ β} : (Except.error e >>= f) = .error e := rfl

theorem mapM_ok_iff {f : α → Except φ β} {l : List α} {l' : List β} :
    l.mapM f = .ok l' ↔ List.Forall₂ (fun a b => f a = .ok b) l l' := by
  induction l generalizing l' with
  | nil => rw [List.mapM_nil, pure_ok_iff, List.forall₂_nil_left_iff, eq_comm]
  | cons a l ih =>
    rw [List.mapM_cons, List.forall₂_cons_left_iff]
    simp only [bind_ok_iff, pure_ok_iff, ih]
    constructor
    · rintro ⟨b, hb, l', hl, rfl⟩
      exact ⟨b, l', hb, hl, rfl⟩
    · rintro ⟨b, l', hb, hl, rfl⟩
      exact ⟨b, hb, l', hl, rfl⟩

theorem mapM_error {f : α → Except φ β} {l : List α} {e : φ} (h : l.mapM f = .error e) :
    ∃ a ∈ l, f a = .error e := by
  induction l with
  | nil => cases h
  | cons a l ih =>
    rw [List.mapM_cons] at h
    rcases bind_error_iff.1 h with h | ⟨b, -, h⟩
    · exact ⟨a, by simp, h⟩
    · rcases bind_error_iff.1 h with h | ⟨l', -, h⟩
      · obtain ⟨a', ha', h⟩ := ih h
        exact ⟨a', by simp [ha'], h⟩
      · cases h

/-- An answer, in the form in which it can be computed. -/
theorem ok_of_mem_toOption {x : Except φ α} {a : α} (h : a ∈ x.toOption) : x = .ok a := by
  cases x with
  | error e => cases h
  | ok b =>
    cases h
    rfl

/-- An assertion: `e` when `p` does not hold. -/
def require (p : Prop) [Decidable p] (e : φ) : Except φ Unit :=
  if p then .ok () else .error e

theorem require_ok_iff {p : Prop} [Decidable p] {e : φ} {u : Unit} : require p e = .ok u ↔ p := by
  by_cases hp : p <;> simp [require, hp]

theorem require_error_iff {p : Prop} [Decidable p] {e e' : φ} :
    require p e = .error e' ↔ ¬ p ∧ e = e' := by
  by_cases hp : p <;> simp [require, hp]

end Except

namespace Machine

open Relation

/-! ## Runs -/

section Runs

variable {σ ε φ : Type} {ok ok' : σ → ε → Prop} {step : σ → ε → Except φ σ}

/-- A run: every event is admitted in the state it meets and taken without a fault. -/
inductive Run (ok : σ → ε → Prop) (step : σ → ε → Except φ σ) : σ → List ε → σ → Prop
  | nil : Run ok step s [] s
  | cons : ok s e → step s e = .ok s' → Run ok step s' es s'' → Run ok step s (e :: es) s''

/-- The states runs from `init` end in. -/
def Reachable (ok : σ → ε → Prop) (step : σ → ε → Except φ σ) (init s : σ) : Prop :=
  ∃ es, Run ok step init es s

theorem Run.append {s s' s'' : σ} {es es' : List ε} (h : Run ok step s es s')
    (h' : Run ok step s' es' s'') : Run ok step s (es ++ es') s'' := by
  induction h with
  | nil => exact h'
  | cons hok hs _ ih => exact .cons hok hs (ih h')

/-- A run is one of `ok'` too if the steps that succeed are. -/
theorem Run.admitted (hle : ∀ s e s', ok s e → step s e = .ok s' → ok' s e) {s s' : σ} {es : List ε}
    (h : Run ok step s es s') : Run ok' step s es s' := by
  induction h with
  | nil => exact .nil
  | cons hok hs _ ih => exact .cons (hle _ _ _ hok hs) hs ih

theorem Run.mono (hle : ∀ s e, ok s e → ok' s e) {s s' : σ} {es : List ε} (h : Run ok step s es s') :
    Run ok' step s es s' :=
  h.admitted fun s e _ hok _ => hle s e hok

/-- What holds at the start and is kept by every admitted step holds at the end. -/
theorem Run.invariant (I : σ → Prop)
    (keep : ∀ s e s', I s → ok s e → step s e = .ok s' → I s') {s s' : σ} {es : List ε}
    (h : Run ok step s es s') (hs : I s) : I s' := by
  induction h with
  | nil => exact hs
  | cons hok hstep _ ih => exact ih (keep _ _ _ hs hok hstep)

/-- Induction on the last event of a run. -/
theorem Run.induction_snoc {s : σ} (P : List ε → σ → Prop) (nil : P [] s)
    (snoc : ∀ es s' e s'', Run ok step s es s' → P es s' → ok s' e → step s' e = .ok s'' → P (es ++ [e]) s'')
    {es : List ε} {s' : σ} (h : Run ok step s es s') : P es s' := by
  suffices key : ∀ {t t' : σ} {es' : List ε}, Run ok step t es' t' →
      ∀ es, Run ok step s es t → P es t → P (es ++ es') t' from by
    simpa using key h [] .nil nil
  intro t t' es' hr
  induction hr with
  | nil => intro es _ hp; simpa using hp
  | @cons t e u es' u' hok hstep _ ih =>
    intro es hr hp
    have := ih (es ++ [e]) (hr.append (.cons hok hstep .nil)) (snoc es t e u hr hp hok hstep)
    simpa using this

theorem Reachable.init {s : σ} : Reachable ok step s s := ⟨[], .nil⟩

theorem Reachable.snoc {init s s' : σ} {e : ε} (h : Reachable ok step init s) (hok : ok s e)
    (hs : step s e = .ok s') : Reachable ok step init s' := by
  obtain ⟨es, hr⟩ := h
  exact ⟨es ++ [e], hr.append (.cons hok hs .nil)⟩

theorem Reachable.invariant (I : σ → Prop)
    (keep : ∀ s e s', I s → ok s e → step s e = .ok s' → I s') {init s : σ} (hinit : I init)
    (h : Reachable ok step init s) : I s := by
  obtain ⟨es, hr⟩ := h
  exact hr.invariant I keep hinit

/-- The run taking `es`, where there is one. -/
def exec (ok : σ → ε → Prop) [∀ s e, Decidable (ok s e)] (step : σ → ε → Except φ σ) (s : σ) :
    List ε → Option σ
  | [] => some s
  | e :: es =>
    if ok s e then
      match step s e with
      | .ok s' => exec ok step s' es
      | .error _ => none
    else none

theorem run_of_exec [∀ s e, Decidable (ok s e)] {s s' : σ} {es : List ε}
    (h : exec ok step s es = some s') : Run ok step s es s' := by
  induction es generalizing s with
  | nil => cases h; exact .nil
  | cons e es ih =>
    simp only [exec] at h
    split at h
    · next hok =>
      split at h
      · next hs => exact .cons hok hs (ih h)
      · cases h
    · cases h

/-- A run computed, with what its last state is like. -/
theorem exists_run (ok : σ → ε → Prop) [∀ s e, Decidable (ok s e)] (step : σ → ε → Except φ σ) (s : σ)
    (es : List ε) (P : σ → Prop) (h : ∃ s' ∈ exec ok step s es, P s') : ∃ s', Run ok step s es s' ∧ P s' := by
  obtain ⟨s', hs, hP⟩ := h
  exact ⟨s', run_of_exec hs, hP⟩

end Runs

/-! ## The moves inside a step -/

section Traces

variable {σ φ α β : Type} {R R' : σ → σ → Prop} {F F' : σ → φ → Prop}

/-- The computation `x` from `s` moves by `R`: to the state of its answer, or
to a state where `F` allows the fault it raises. -/
def Traces (R : σ → σ → Prop) (F : σ → φ → Prop) (g : α → σ) (s : σ) : Except φ α → Prop
  | .ok a => ReflTransGen R s (g a)
  | .error f => ∃ s', ReflTransGen R s s' ∧ F s' f

theorem Traces.done {g : α → σ} {s : σ} {a : α} (h : g a = s) : Traces R F g s (.ok a) := by
  rw [← h]
  exact ReflTransGen.refl

theorem Traces.move {g : α → σ} {s : σ} {a : α} (h : R s (g a)) : Traces R F g s (.ok a) :=
  ReflTransGen.single h

theorem Traces.fault {g : α → σ} {s : σ} {f : φ} (h : F s f) : Traces R F g s (.error f) :=
  ⟨s, .refl, h⟩

/-- An invariant of the moves holds of the answer. -/
theorem Traces.keeps {g : α → σ} {s : σ} {a : α} (I : σ → Prop)
    (keep : ∀ s s', I s → R s s' → I s') (h : Traces R F g s (.ok a)) (hs : I s) : I (g a) := by
  refine ReflTransGen.head_induction_on (motive := fun t _ => I t → I (g a)) h id ?_ hs
  intro t u hR _ ih ht
  exact ih (keep _ _ ht hR)

/-- Sequencing; what the moves keep is there for the second part. -/
theorem Traces.bind {g : α → σ} {g' : β → σ} {s : σ} {x : Except φ α} {f : α → Except φ β} (I : σ → Prop)
    (keep : ∀ s s', I s → R s s' → I s') (hs : I s) (hx : Traces R F g s x)
    (hf : ∀ a, I (g a) → x = .ok a → Traces R F g' (g a) (f a)) : Traces R F g' s (x >>= f) := by
  cases x with
  | error e => exact hx
  | ok a =>
    have h := hf a (hx.keeps I keep hs) rfl
    rw [Except.ok_bind]
    cases hfa : f a with
    | ok b => rw [hfa] at h; exact ReflTransGen.trans hx h
    | error e =>
      rw [hfa] at h
      obtain ⟨s', hs, he⟩ := h
      exact ⟨s', ReflTransGen.trans hx hs, he⟩

/-- One move, then the rest. -/
theorem Traces.after {g : α → σ} {s s' : σ} {x : Except φ α} (h : R s s') (hx : Traces R F g s' x) :
    Traces R F g s x := by
  cases x with
  | ok a => exact ReflTransGen.head h hx
  | error f =>
    obtain ⟨s'', hs, hf⟩ := hx
    exact ⟨s'', ReflTransGen.head h hs, hf⟩

/-- An assertion in front of a computation: either it fails here or the rest runs. -/
theorem Traces.require {g : β → σ} {s : σ} {p : Prop} [Decidable p] {e : φ} {f : Unit → Except φ β}
    (he : ¬ p → F s e) (hf : p → Traces R F g s (f ())) :
    Traces R F g s (Except.require p e >>= f) := by
  by_cases hp : p
  · simpa [Except.require, hp] using hf hp
  · simpa [Except.require, hp] using Traces.fault (he hp)

theorem Traces.foldlM {l : List α} {f : σ → α → Except φ σ} {s : σ} (I : σ → Prop)
    (keep : ∀ s s', I s → R s s' → I s') (hs : I s) (h : ∀ s a, a ∈ l → I s → Traces R F id s (f s a)) :
    Traces R F id s (l.foldlM f s) := by
  induction l generalizing s with
  | nil => exact Traces.done rfl
  | cons a l ih =>
    rw [List.foldlM_cons]
    exact (h s a (by simp) hs).bind I keep hs fun s' hs' _ => ih hs' fun t b hb => h t b (by simp [hb])

theorem Traces.mono {g : α → σ} {s : σ} {x : Except φ α} (hR : ∀ s s', R s s' → R' s s')
    (hF : ∀ s f, F s f → F' s f) (h : Traces R F g s x) : Traces R' F' g s x := by
  cases x with
  | ok a => exact ReflTransGen.mono hR _ _ h
  | error f =>
    obtain ⟨s', hs, hf⟩ := h
    exact ⟨s', ReflTransGen.mono hR _ _ hs, hF _ _ hf⟩

/-- And of the state a fault is raised in. -/
theorem Traces.faults {g : α → σ} {s : σ} {f : φ} (I : σ → Prop)
    (keep : ∀ s s', I s → R s s' → I s') (h : Traces R F g s (.error f)) (hs : I s) :
    ∃ s', I s' ∧ F s' f := by
  obtain ⟨s', hR, hf⟩ := h
  exact ⟨s', Traces.keeps (F := F) (a := s') I keep (g := id) hR hs, hf⟩

/-- Both at once, for a computation that answers a state. -/
theorem Traces.outcome {s : σ} {x : Except φ σ} (I : σ → Prop) (keep : ∀ s s', I s → R s s' → I s')
    (h : Traces R F id s x) (hs : I s) :
    (∀ s', x = .ok s' → I s') ∧ ∀ f, x = .error f → ∃ s', I s' ∧ F s' f := by
  constructor
  · rintro s' rfl
    exact h.keeps I keep hs
  · rintro f rfl
    exact h.faults I keep hs

end Traces

end Machine
