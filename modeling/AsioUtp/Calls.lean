/-
Every call is answered once.

The handler of a call waits in a slot, or among the posted completions, until
the executor runs it. `Conserves` says which handlers come in and which are
taken out; between the call that starts an operation and the run of its
handler no event does either, whatever is closed in the meantime
(`step_awaiting`). So in every run the handler of a call has been run once
and waits nowhere, or has not been run and waits at one place
(`called_once`).
-/
import AsioUtp.Inventory

namespace AsioUtp

namespace World

open Machine Relation

/-- At how many places the handler of call `k` waits to be run. -/
def awaiting (k : Nat) (w : World) : Nat :=
  w.total (SocketImpl.held (·.op == k)) + w.posted.countP fun c => c.handler.op == k

theorem places_eq (k : Nat) (w : World) :
    w.places k = w.awaiting k + w.running.countP fun c => c.handler.op == k := by
  simp only [places, tally, due, awaiting, List.countP_append]
  omega

/-! ## What the moves do -/

/-- From `w` to `w'` nothing is run; `gain` handlers of call `k` have come in and `loss` have been taken out. -/
structure Conserves (k gain loss : Nat) (w w' : World) : Prop where
  regular : Regular w'
  ops : w'.ops = w.ops
  running : w'.running = w.running
  awaiting : w'.awaiting k + loss = w.awaiting k + gain

variable {k : Nat}

theorem Conserves.refl {w : World} (hw : Regular w) : Conserves k 0 0 w w := ⟨hw, rfl, rfl, rfl⟩

theorem Conserves.trans {w w' w'' : World} {g l g' l' : Nat} (h : Conserves k g l w w')
    (h' : Conserves k g' l' w' w'') : Conserves k (g + g') (l + l') w w'' :=
  ⟨h'.regular, h'.ops.trans h.ops, h'.running.trans h.running, by have := h.awaiting; have := h'.awaiting; omega⟩

theorem Conserves.then {w w' w'' : World} {g l : Nat} (h : Conserves k g l w w') (h' : Conserves k 0 0 w' w'') :
    Conserves k g l w w'' := h.trans h'

theorem Conserves.after {w w' w'' : World} {g l : Nat} (h : Conserves k 0 0 w w') (h' : Conserves k g l w' w'') :
    Conserves k g l w w'' :=
  ⟨h'.regular, h'.ops.trans h.ops, h'.running.trans h.running, by have := h.awaiting; have := h'.awaiting; omega⟩

theorem Move.ops_running {w w' : World} {l : Label} (hm : Move w l w') (hl : l.Inner) :
    w'.ops = w.ops ∧ w'.running = w.running := by
  cases hm with
  | @shut i ec _ _ _ =>
    obtain ⟨utp, heq, -⟩ := shutUtp_eq w i ec
    rw [heq]
    exact ⟨rfl, rfl⟩
  | finish _ hf =>
    obtain ⟨-, c, -, rfl⟩ := finishClose_ok_iff.1 hf
    exact ⟨rfl, rfl⟩
  | bind =>
    unfold World.bind
    split <;> exact ⟨rfl, rfl⟩
  | moveConstruct =>
    unfold World.moveConstruct
    dsimp only
    split <;> exact ⟨rfl, rfl⟩
  | number | run | ran => exact hl.elim
  | _ => exact ⟨rfl, rfl⟩

theorem Move.conserves {w w' : World} {l : Label} (hm : Move w l w') (hw : Regular w) (hl : l.Inner) :
    Conserves k (l.gained (·.op == k)) (l.lost (·.op == k) w) w w' := by
  obtain ⟨hops, hrunning⟩ := hm.ops_running hl
  have htally : w'.places k + l.lost (·.op == k) w = w.places k + l.gained (·.op == k) :=
    tally_move (·.op == k) hw.sound.formed hw.placed hm
  refine ⟨hw.move hm, hops, hrunning, ?_⟩
  rw [places_eq, places_eq, hrunning] at htally
  omega

theorem Move.steady {w w' : World} {l : Label} (hm : Move w l w') (hw : Regular w) (hl : l.Steady) :
    Conserves k 0 0 w w' := by
  have h := hm.conserves (k := k) hw hl.inner
  cases l <;> first | exact hl.elim | exact h

theorem Path.conserves {ok : Label → Prop} {w w' : World} (h : Path ok w w') (hw : Regular w)
    (hok : ∀ l, ok l → l.Steady) : Conserves k 0 0 w w' := by
  induction h with
  | refl => exact .refl hw
  | tail _ hm ih =>
    obtain ⟨l, hl, hm⟩ := hm
    exact ih.then (hm.steady ih.regular (hok l hl))

theorem Move.gives {w w' : World} {l : Label} {x : Handler} (hm : Move w l w') (hw : Regular w) (hl : l.Gives x) :
    Conserves k (x.op == k).toNat 0 w w' := by
  have h := hm.conserves (k := k) hw (by cases l <;> trivial)
  cases l with
  | setup | connect | waiting =>
    cases hl
    exact h
  | direct c =>
    obtain ⟨rfl, -⟩ := hl
    exact h
  | _ => exact hl.elim

/-! ## Events and runs -/

/-- The operations: the call is numbered, and its handler is in its slot or posted. -/
theorem starts_conserves {w w' : World} {ev : Event} {v : Nat} {slot : Slot} (hw : Regular w)
    (hev : ev.starts = some (v, slot)) (hs : w.step ev = .ok w') :
    Conserves k (w.ops == k).toNat 0 w.numberOp w' := by
  obtain ⟨w₀, l, w₁, hpre, hm, -, hl, hrest⟩ := starts_path hw.sound.formed hev hs
  have hprepared : Conserves k 0 0 w.numberOp w₀ := hpre.conserves (hw.move .number) fun _ => And.right
  have hgiven : Conserves k (w.ops == k).toNat 0 w₀ w₁ := hm.gives hprepared.regular hl
  exact (hprepared.after hgiven).then (hrest.conserves hgiven.regular fun _ => And.right)

/-- A write that is resumed comes out of its slot and into it again. -/
theorem resumes_conserves {w w' : World} {u : Nat} {rs : List WriteReply} (hw : Regular w)
    (halive : (w.utp u).alive = true) (hs : w.step (.stateChange u .writable rs) = .ok w') :
    Conserves k 0 0 w w' := by
  cases hu : (w.utp u).userdata with
  | none =>
    simp only [step, stateChange, callbackOnStateChange, hu, Except.ok_bind] at hs
    cases hs
    exact .refl hw
  | some i =>
    cases hx : (w.impls i).handlers .send with
    | none =>
      rw [step_writable hu, onWritable, hx] at hs
      cases hs
      exact .refl hw
    | some x =>
      obtain ⟨w₀, w₁, htake, hsetup, hrest⟩ := resumes_path hw.sound halive hu hx hs
      have htaken := htake.conserves (k := k) hw trivial
      simp only [Label.gained, Label.lost, hx, Option.any_some] at htaken
      have hgiven := htaken.trans (hsetup.gives (k := k) (x := x) htaken.regular rfl)
      have hall := hgiven.then (hrest.conserves hgiven.regular fun l hl => hl.elim (·.steady) (·.steady))
      refine ⟨hall.regular, hall.ops, hall.running, ?_⟩
      have := hall.awaiting
      omega

/-- The event runs the handler of call `k`. -/
def Event.runs (k : Nat) : Event → Bool
  | .run c => c.handler.op == k
  | _ => false

theorem awaiting_run {w : World} {c : Completion} (hc : c ∈ w.posted) :
    (w.run c).awaiting k + ((Event.run c).runs k).toNat = w.awaiting k := by
  have hplaces : (w.run c).places k = w.places k := by
    unfold places tally
    rw [due_run hc]
    rfl
  have hrunning : (w.run c).running = c :: w.running := rfl
  rw [places_eq, places_eq, hrunning, List.countP_cons] at hplaces
  simp only [Event.runs]
  cases hk : c.handler.op == k <;> simp only [hk, Bool.toNat_true, Bool.toNat_false] at hplaces ⊢ <;>
    simp only [if_true, Bool.false_eq_true, if_false] at hplaces <;> omega

theorem other_conserves {w w' : World} {ev : Event} (hw : Regular w) (hen : w.Enabled ev) (hstart : ev.starts = none)
    (hrun : ∀ c, ev ≠ .run c) (hs : w.step ev = .ok w') :
    Regular w' ∧ w'.ops = w.ops ∧ w'.awaiting k = w.awaiting k := by
  suffices h : ev = .ran ∨ Conserves k 0 0 w w' by
    rcases h with rfl | h
    · cases hs
      refine ⟨hw.move .ran, ?_⟩
      unfold World.ran
      split
      · exact ⟨rfl, rfl⟩
      · dsimp only
        split <;> exact ⟨rfl, rfl⟩
    · exact ⟨h.regular, h.ops, h.awaiting⟩
  by_cases hev : ev.Steady
  · exact .inr ((steady_path hw.sound hen hev hs).conserves hw fun _ => And.right)
  cases ev with
  | ran => exact .inl rfl
  | run c => exact absurd rfl (hrun c)
  | stateChange u state rs =>
    cases state with
    | writable => exact .inr (resumes_conserves hw hen.2 hs)
    | _ => exact absurd rfl hev
  | _ => exact absurd hstart hev

/-- What one event does: it starts a call, it runs the handler of one, or neither. -/
theorem step_awaiting {w w' : World} {ev : Event} (hw : Regular w) (hen : w.Enabled ev) (hs : w.step ev = .ok w') :
    Regular w' ∧ w'.ops = w.ops + ev.starts.isSome.toNat ∧
      w'.awaiting k + (ev.runs k).toNat = w.awaiting k + (ev.starts.isSome && w.ops == k).toNat := by
  cases hstart : ev.starts with
  | some p =>
    obtain ⟨v, slot⟩ := p
    have h := starts_conserves (k := k) hw hstart hs
    have hruns : ev.runs k = false := by cases ev <;> first | rfl | cases hstart
    refine ⟨h.regular, h.ops, ?_⟩
    have hawait : w'.awaiting k = w.awaiting k + (w.ops == k).toNat := h.awaiting
    simpa [hruns] using hawait
  | none =>
    by_cases hrun : ∃ c, ev = .run c
    · obtain ⟨c, rfl⟩ := hrun
      cases hs
      exact ⟨hw.move (.run hen), rfl, awaiting_run hen⟩
    · have hruns : ev.runs k = false := by
        cases ev <;> first | rfl | exact absurd ⟨_, rfl⟩ hrun
      obtain ⟨hreg, hops, hawait⟩ := other_conserves (k := k) hw hen hstart (fun c hc => hrun ⟨c, hc⟩) hs
      simp [hreg, hops, hawait, hruns]

/-- In every run the handler of a call that was made has been run, or waits at one place. -/
theorem run_awaiting {w : World} {evs : List Event} (h : Run Enabled step {} evs w) :
    Regular w ∧ w.ops = evs.countP (·.starts.isSome) ∧
      ∀ k, evs.countP (·.runs k) + w.awaiting k = if k < w.ops then 1 else 0 := by
  refine h.induction_snoc (fun evs w => Regular w ∧ w.ops = evs.countP (·.starts.isSome) ∧
    ∀ k, evs.countP (·.runs k) + w.awaiting k = if k < w.ops then 1 else 0)
    ⟨reachable_regular .init, rfl, fun k => rfl⟩ ?_
  rintro evs w ev w' - ⟨hw, hops, hcount⟩ hen hs
  have hstep := fun k => step_awaiting (k := k) hw hen hs
  refine ⟨(hstep 0).1, ?_, fun k => ?_⟩
  · rw [(hstep 0).2.1, hops, List.countP_append, List.countP_singleton]
    cases ev.starts.isSome <;> rfl
  · obtain ⟨-, hops', hawait⟩ := hstep k
    have hk := hcount k
    have hruns : List.countP (·.runs k) [ev] = (ev.runs k).toNat := by
      rw [List.countP_singleton]
      cases ev.runs k <;> rfl
    rw [List.countP_append, hruns, hops']
    generalize ev.starts.isSome = starts at hawait
    cases starts with
    | false =>
      simp only [Bool.false_and, Bool.toNat_false, Nat.add_zero] at hawait ⊢
      omega
    | true =>
      simp only [Bool.true_and, Bool.toNat_true] at hawait ⊢
      by_cases hk' : w.ops = k
      · subst hk'
        simp only [beq_self_eq_true, Bool.toNat_true, lt_irrefl, if_false] at hawait hk
        rw [if_pos (Nat.lt_succ_self _)]
        omega
      · have hlt : k < w.ops + 1 ↔ k < w.ops := by omega
        simp only [beq_eq_false_iff_ne.2 hk', Bool.toNat_false, Nat.add_zero] at hawait
        simp only [hlt]
        omega

/-- **Every call is answered once.** In every run the calls are numbered as they are made; the handler of a call that
was made has been run, once, and waits nowhere, or has not been run and waits at one place, in its slot or posted;
and nothing is run or waits for a call that was not made. -/
theorem called_once {w : World} {evs : List Event} (h : Run Enabled step {} evs w) :
    w.ops = evs.countP (·.starts.isSome) ∧
      ∀ k, evs.countP (·.runs k) + w.awaiting k = if k < w.ops then 1 else 0 :=
  (run_awaiting h).2

/-- Three calls: a connect that succeeds and is run, a read that is closed with it pending and then run, and a write
on the socket that is gone, refused and not yet run. -/
theorem called_once_three :
    ∃ w c c', Run Enabled step {} [.socket, .bind 0, .asyncConnect 0 default [] [], .stateChange 0 .connect [],
        .run c, .asyncReadSome 0 [[0]], .ran, .close 0, .asyncWriteSome 0 [[1]] [], .run c'] w ∧
      c.handler.op = 0 ∧ c'.handler.op = 1 ∧ w.ops = 3 ∧ w.awaiting 0 = 0 ∧ w.awaiting 1 = 0 ∧ w.awaiting 2 = 1 := by
  obtain ⟨w, hrun, hops⟩ := exists_run Enabled step {}
    [.socket, .bind 0, .asyncConnect 0 default [] [], .stateChange 0 .connect [],
      .run { impl := some 0, slot := .connect, handler := { op := 0, after := true }, ec := .success },
      .asyncReadSome 0 [[0]], .ran, .close 0, .asyncWriteSome 0 [[1]] [],
      .run { impl := some 0, slot := .recv, handler := { op := 1, after := true }, ec := .operationAborted }]
    (fun w => w.ops = 3) (by decide)
  obtain ⟨-, hcount⟩ := called_once hrun
  refine ⟨w, _, _, hrun, rfl, rfl, hops, ?_, ?_, ?_⟩
  · simpa [hops, Event.runs] using hcount 0
  · simpa [hops, Event.runs] using hcount 1
  · simpa [hops, Event.runs] using hcount 2

end World

end AsioUtp
