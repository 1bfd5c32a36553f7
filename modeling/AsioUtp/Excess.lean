/-
The count of outstanding operations over every run.

`Outstanding.lean` has the count exact where no write is resumed. A resumed
write passes through `setup_op` a second time, and the one continuation its
handler has is called once: from then on the count is one too high. `Exceeds n`
says by how much, and `count_excess` that it is the number of writes resumed
so far, whatever else happened.

The count is then never decremented at zero, so that what a run does to its
context is a run of the context alone (`context_refines`), and what is known
of those holds of every world: the context listens and ticks exactly while
something is outstanding, or a write has been resumed.
-/
import AsioUtp.Calls
import AsioUtp.Outstanding
import AsioUtp.Lib.History

namespace AsioUtp

/-- The events by which the `socket_impl`s count their operations. -/
def Context.Event.counts : Context.Event → Bool
  | .increment | .decrement => true
  | _ => false

namespace World

open Machine Relation

/-! ## The invariant -/

/-- The context comes from `c` to `c'` by the events `own` and by counting. -/
def CtxRun (own : List Context.Event) (c c' : Context) : Prop :=
  ∃ cevs, Run Context.Enabled Context.step c cevs c' ∧ cevs.filter (fun ev => !ev.counts) = own

theorem CtxRun.snoc {own : List Context.Event} {c c' c'' : Context} {ev : Context.Event} (h : CtxRun own c c')
    (hen : c'.Enabled ev) (hs : c'.step ev = .ok c'') : CtxRun (own ++ [ev].filter (fun ev => !ev.counts)) c c'' := by
  obtain ⟨cevs, hrun, rfl⟩ := h
  exact ⟨cevs ++ [ev], hrun.append (.cons hen hs .nil), List.filter_append ..⟩

theorem CtxRun.counted {own : List Context.Event} {c c' c'' : Context} (h : CtxRun own c c') (ev : Context.Event)
    (hev : ev.counts = true) (hen : c'.Enabled ev) (hs : c'.step ev = .ok c'') : CtxRun own c c'' := by
  simpa [hev] using h.snoc hen hs

theorem CtxRun.reachable {own : List Context.Event} {c c' : Context} (h : CtxRun own c c') :
    Reachable Context.Enabled Context.step c c' := by
  obtain ⟨cevs, hrun, -⟩ := h
  exact ⟨cevs, hrun⟩

/-- The count is `n` above what is outstanding, and the context has come where it is by the events `own`. -/
structure Exceeds (n : Nat) (own : List Context.Event) (w : World) : Prop where
  placed : Placed w
  count : w.ctx.outstandingOpCount = w.tally (·.after) + w.total closeShare + n
  ctx : CtxRun own {} w.ctx

theorem exceeds_init : Exceeds 0 [] {} := ⟨placed_init, rfl, [], .nil, rfl⟩

/-- A handler that is posted at once has no continuation; the context's own events are apart. -/
def Label.Fresh : Label → Prop
  | .direct c => c.handler.after = false
  | .loop _ => False
  | _ => True

/-- The continuations taken out with a write that is resumed. -/
def Label.taken : Label → Nat
  | .take _ => 1
  | _ => 0

variable {n : Nat} {own : List Context.Event}

theorem Exceeds.move {w w' : World} {l : Label} {m : Nat} {own' : List Context.Event} (hf : Formed w)
    (h : Exceeds n own w) (hm : Move w l w') (hctx : CtxRun own' {} w'.ctx)
    (hcount : w'.ctx.outstandingOpCount + l.lost (·.after) w + w.total closeShare + n =
      w.ctx.outstandingOpCount + l.gained (·.after) + w'.total closeShare + m) : Exceeds m own' w' := by
  refine ⟨placed_move hf h.placed hm, ?_, hctx⟩
  have htally := tally_move (·.after) hf h.placed hm
  have := h.count
  unfold Counts at htally
  omega

/-- A move that brings in no handler with a continuation, takes none away, and leaves the context. -/
theorem Exceeds.plain {w w' : World} {l : Label} (hf : Formed w) (h : Exceeds n own w) (hm : Move w l w')
    (hgained : l.gained (·.after) = 0) (hlost : l.lost (·.after) w = 0) (hctx : w'.ctx = w.ctx)
    (htotal : w'.total closeShare = w.total closeShare) : Exceeds n own w' := by
  refine h.move hf hm (hctx ▸ h.ctx) ?_
  rw [hgained, hlost, hctx, htotal]

/-- An operation that starts. -/
theorem Exceeds.start {w w' : World} {l : Label} {c : Context} (hf : Formed w) (h : Exceeds n own w) (hm : Move w l w')
    (hgained : l.gained (·.after) = 1) (hlost : l.lost (·.after) w = 0)
    (hinc : w.ctx.incrementOutstandingOps = .ok c) (hctx : w'.ctx = c)
    (htotal : w'.total closeShare = w.total closeShare) : Exceeds n own w' := by
  subst hctx
  refine h.move hf hm (h.ctx.counted .increment rfl trivial hinc) ?_
  rw [hgained, hlost, (Context.increment_alive hinc).2.2, htotal]

/-- A close that starts or ends. -/
theorem Exceeds.close {w w' : World} {l : Label} {i : Nat} {s : SocketImpl} (hf : Formed w) (h : Exceeds n own w)
    (hm : Move w l w') (hi : i ∈ w.registeredSockets) (hreg : w'.registeredSockets = w.registeredSockets)
    (himpl : w'.impls = Function.update w.impls i s) (hctx : CtxRun own {} w'.ctx)
    (hgained : l.gained (·.after) = 0) (hlost : l.lost (·.after) w = 0)
    (hcount : w'.ctx.outstandingOpCount + closeShare (w.impls i) = w.ctx.outstandingOpCount + closeShare s) :
    Exceeds n own w' := by
  have htotal := total_setImpl closeShare hf hi hreg himpl
  refine h.move hf hm hctx ?_
  rw [hgained, hlost]
  omega

theorem Exceeds.close_pos {w : World} (hf : Formed w) (h : Exceeds n own w) {i : Nat}
    (hd : (w.impls i).decrementClose = true) : 0 < w.ctx.outstandingOpCount := by
  have hle := sum_map_update hf.nodup (fun j => closeShare (w.impls j)) (h.placed.registered_of_decrement hd) 0
  have hone : closeShare (w.impls i) = 1 := by rw [closeShare, hd, Bool.toNat_true]
  have := h.count
  unfold total at this
  omega

theorem Exceeds.running_pos {w : World} (h : Exceeds n own w) {c : Completion} (hc : c ∈ w.running)
    (hafter : c.handler.after = true) : 0 < w.ctx.outstandingOpCount := by
  have hpos : 0 < w.due (·.after) := List.countP_pos_iff.2 ⟨c, by simp [hc], hafter⟩
  have := h.count
  unfold tally at this
  omega

theorem exceeds_finish {w w' : World} (hf : Formed w) (h : Exceeds n own w) {i : Nat}
    (hclosed : (w.impls i).closed = true) (hfin : w.finishClose i = .ok w') : Exceeds n own w' := by
  have hi : i ∈ w.registeredSockets := by
    by_contra hi
    rw [(h.placed.idle i hi).1] at hclosed
    cases hclosed
  have hm : Move w (.finish i) w' := .finish hclosed hfin
  obtain ⟨hd, c, hc, rfl⟩ := finishClose_ok_iff.1 hfin
  refine h.close hf hm hi rfl rfl (h.ctx.counted .increment rfl trivial hc) rfl rfl ?_
  show c.outstandingOpCount + (w.impls i).decrementClose.toNat = w.ctx.outstandingOpCount + true.toNat
  rw [(Context.increment_alive hc).2.2, hd]
  rfl

theorem exceeds_decrement {w : World} (hf : Formed w) (h : Exceeds n own w) {i : Nat}
    (hd : (w.impls i).decrementClose = true) :
    Exceeds n own (({ w with ctx := w.ctx.decrementOutstandingOps } : World).setImpl i
      { w.impls i with decrementClose := false }) := by
  have hpos := h.close_pos hf hd
  obtain ⟨t, m, heq⟩ := Context.decrement_spec hpos
  refine h.close hf (.decrement hd) (h.placed.registered_of_decrement hd) rfl rfl
    (h.ctx.counted .decrement rfl hpos rfl) rfl rfl ?_
  show w.ctx.decrementOutstandingOps.outstandingOpCount + (w.impls i).decrementClose.toNat =
    w.ctx.outstandingOpCount + false.toNat
  rw [heq, hd, Bool.toNat_true, Bool.toNat_false]
  show w.ctx.outstandingOpCount - 1 + 1 = w.ctx.outstandingOpCount + 0
  omega

theorem exceeds_ran {w : World} (hf : Formed w) (h : Exceeds n own w) : Exceeds n own w.ran := by
  have hm : Move w .ran w.ran := .ran
  cases hrun : w.running with
  | nil =>
    have hsame : w.ran = w := by simp [World.ran, hrun]
    rw [hsame]
    exact h
  | cons c rest =>
    have htotal : w.ran.total closeShare = w.total closeShare := by
      simp only [World.ran, hrun]
      split <;> rfl
    cases hafter : c.handler.after with
    | false =>
      have hctx : w.ran.ctx = w.ctx := by simp [World.ran, hrun, hafter]
      refine h.move hf hm (hctx ▸ h.ctx) ?_
      rw [htotal, hctx]
      simp [Label.gained, Label.lost, hrun, hafter]
    | true =>
      have hpos := h.running_pos (c := c) (by simp [hrun]) hafter
      have hctx : w.ran.ctx = w.ctx.decrementOutstandingOps := by simp [World.ran, hrun, hafter]
      obtain ⟨t, m, heq⟩ := Context.decrement_spec hpos
      refine h.move hf hm (h.ctx.counted .decrement rfl hpos (by rw [hctx]; rfl)) ?_
      rw [htotal, hctx, heq]
      simp only [Label.gained, Label.lost, hrun, List.head?_cons, Option.any_some, hafter, Bool.toNat_true]
      omega

/-- **What one move does to the count**: only a write that is taken out of its slot leaves it too high. -/
theorem exceeds_move {w w' : World} {l : Label} (hf : Formed w) (h : Exceeds n own w) (hok : l.Fresh)
    (hm : Move w l w') : Exceeds (n + l.taken) own w' := by
  have hmove := hm
  cases hm with
  | setup _ _ _ _ _ hinc => exact h.start hf hmove rfl rfl hinc rfl (total_same rfl (update_field closeShare rfl))
  | connect _ _ hinc => exact h.start hf hmove rfl rfl hinc rfl (total_same rfl (update_field closeShare rfl))
  | waiting _ _ _ hinc => exact h.start hf hmove rfl rfl hinc rfl (total_same rfl (update_field closeShare rfl))
  | @take i x hx =>
    have htotal : (w.setImpl i ((w.impls i).setHandler .send none)).total closeShare = w.total closeShare :=
      total_same rfl (update_field closeShare rfl)
    refine h.move hf hmove h.ctx ?_
    rw [htotal]
    simp only [Label.lost, Label.gained, Label.taken, hx, Option.any_some, h.placed.after i .send x hx, Bool.toNat_true]
    show w.ctx.outstandingOpCount + 1 + _ + n = w.ctx.outstandingOpCount + 0 + _ + (n + 1)
    omega
  | direct =>
    have hgained : (Label.direct _).gained (·.after) = 0 := congrArg Bool.toNat hok
    exact h.plain hf hmove hgained rfl rfl rfl
  | @shut i ec _ _ _ =>
    obtain ⟨utp, heq, -⟩ := shutUtp_eq w i ec
    rw [heq] at hmove ⊢
    exact h.plain hf hmove rfl rfl rfl (total_same rfl (update_field closeShare rfl))
  | finish hclosed hfin => exact exceeds_finish hf h hclosed hfin
  | data hs | received hs =>
    refine h.plain hf hmove rfl rfl rfl (total_same rfl (update_field closeShare ?_))
    rw [closeShare, closeShare, hs.decrementClose]
  | post | eof | accept | destroy =>
    exact h.plain hf hmove rfl rfl rfl (total_same rfl (update_field closeShare rfl))
  | decrement hd => exact exceeds_decrement hf h hd
  | ran => exact exceeds_ran hf h
  | loop => exact hok.elim
  | @bind v _ _ =>
    refine h.plain hf hmove rfl rfl ?_ (total_bind hf v rfl)
    unfold World.bind
    split <;> rfl
  | moveConstruct =>
    refine h.plain hf hmove rfl rfl ?_ ?_ <;> unfold World.moveConstruct <;> dsimp only <;> split
    · rfl
    · rfl
    · exact total_same rfl (update_field closeShare rfl)
    · rfl
  | run | wrote | create | die | number | socket | release | assign => exact h.plain hf hmove rfl rfl rfl rfl

/-- The context's own events leave the count. -/
theorem exceeds_loop {w : World} {ev : Context.Event} {c : Context} (hf : Formed w) (h : Exceeds n own w)
    (hen : w.ctx.Enabled ev) (hloop : w.ContextEnabled ev) (hc : w.ctx.step ev = .ok c) :
    Exceeds n (own ++ [ev]) { w with ctx := c } := by
  have hev : ev.counts = false := by cases ev <;> first | rfl | exact hloop.elim
  have hctx : CtxRun (own ++ [ev]) {} c := by simpa [hev] using h.ctx.snoc hen hc
  refine h.move hf (.loop hen hloop hc) hctx ?_
  show c.outstandingOpCount + 0 + _ + n = w.ctx.outstandingOpCount + 0 + _ + n
  rw [loop_count hloop hc]
  rfl

/-! ## Events and runs -/

/-- The context's own event that an event of the world is. -/
def Event.toContext : Event → Option Context.Event
  | .context ev => some ev
  | _ => none

theorem Permits.ne_loop {w : World} {ev : Event} {l : Label} (h : w.Permits ev l) (hev : ev.toContext = none)
    (cev : Context.Event) : l ≠ .loop cev := by
  rintro rfl
  cases ev with
  | stateChange u state rs => cases state <;> simp [Permits, Label.Closing, Label.WritesTo] at h
  | context => cases hev
  | _ => simp [Permits, Label.Closing, Label.WritesTo, Label.ReadsOn, Label.Refuses] at h

theorem Label.Steady.fresh {l : Label} (h : l.Steady) (hl : ∀ cev, l ≠ .loop cev) : l.Fresh ∧ l.taken = 0 := by
  cases l with
  | loop cev => exact absurd rfl (hl cev)
  | _ => first | exact h.elim | exact ⟨trivial, rfl⟩

theorem Label.Gives.fresh {l : Label} {x : Handler} (h : l.Gives x) (hx : x.after = false) : l.Fresh ∧ l.taken = 0 := by
  cases l with
  | direct c =>
    obtain ⟨rfl, -⟩ := h
    exact ⟨hx, rfl⟩
  | setup | connect | waiting => exact ⟨trivial, rfl⟩
  | _ => exact h.elim

/-- A move that takes nothing out. -/
theorem Move.exceeds {w w' : World} {l : Label} (hm : Move w l w') (hw : Regular w) (h : Exceeds n own w)
    (hl : l.Fresh ∧ l.taken = 0) : Exceeds n own w' := by
  have := exceeds_move hw.sound.formed h hl.1 hm
  rwa [hl.2] at this

theorem Path.exceeds {ok : Label → Prop} {w w' : World} (h : Path ok w w') (hw : Regular w) (he : Exceeds n own w)
    (hok : ∀ l, ok l → l.Fresh ∧ l.taken = 0) : Exceeds n own w' := by
  induction h with
  | refl => exact he
  | tail hsofar hm ih =>
    obtain ⟨l, hl, hm⟩ := hm
    exact hm.exceeds (Path.regular hsofar hw) ih (hok l hl)

/-- The event resumes a write. -/
def resumes (w : World) : Event → Bool
  | .stateChange u .writable _ => (w.utp u).userdata.any fun i => ((w.impls i).handlers .send).isSome
  | _ => false

theorem exceeds_writable {w w' : World} {u : Nat} {rs : List WriteReply} (hw : Regular w) (h : Exceeds n own w)
    (halive : (w.utp u).alive = true) (hs : w.step (.stateChange u .writable rs) = .ok w') :
    Exceeds (n + (w.resumes (.stateChange u .writable rs)).toNat) own w' := by
  cases hu : (w.utp u).userdata with
  | none =>
    simp only [step, stateChange, callbackOnStateChange, hu, Except.ok_bind] at hs
    cases hs
    simpa [resumes, hu] using h
  | some i =>
    cases hx : (w.impls i).handlers .send with
    | none =>
      rw [step_writable hu, onWritable, hx] at hs
      cases hs
      simpa [resumes, hu, hx] using h
    | some x =>
      obtain ⟨w₀, w₁, htake, hsetup, hrest⟩ := resumes_path hw.sound halive hu hx hs
      have htaken : Exceeds (n + 1) own w₀ := exceeds_move (l := .take i) hw.sound.formed h trivial htake
      have hw₀ := hw.move htake
      have hgiven : Exceeds (n + 1) own w₁ := hsetup.exceeds hw₀ htaken ⟨trivial, rfl⟩
      have hrest := hrest.exceeds (hw₀.move hsetup) hgiven fun l hl => by
        refine (hl.elim (·.steady) (·.steady) : l.Steady).fresh ?_
        rintro cev rfl
        exact hl.elim id id
      simpa [resumes, hu, hx] using hrest

theorem exceeds_calls {w w' : World} {ev : Event} (hw : Regular w) (h : Exceeds n own w) (hen : w.Enabled ev)
    (hev : ev.toContext = none) (hs : w.step ev = .ok w') : Exceeds (n + (w.resumes ev).toNat) own w' := by
  have hfresh : ∀ l, w.Permits ev l ∧ l.Steady → l.Fresh ∧ l.taken = 0 := fun l hl => hl.2.fresh (hl.1.ne_loop hev)
  cases hstart : ev.starts with
  | some p =>
    obtain ⟨v, slot⟩ := p
    have hres : w.resumes ev = false := by cases ev <;> first | rfl | cases hstart
    obtain ⟨w₀, l, w₁, hpre, hm, -, hl, hrest⟩ := starts_path hw.sound.formed hstart hs
    have hnumber : Exceeds n own w.numberOp := Move.number.exceeds hw h ⟨trivial, rfl⟩
    have hw₀ := hpre.regular (hw.move .number)
    have hready : Exceeds n own w₀ := hpre.exceeds (hw.move .number) hnumber hfresh
    have hgiven : Exceeds n own w₁ := hm.exceeds hw₀ hready (hl.fresh rfl)
    rw [hres]
    exact hrest.exceeds (hw₀.move hm) hgiven hfresh
  | none =>
    by_cases hsteady : ev.Steady
    · have hres : w.resumes ev = false := by
        cases ev with
        | stateChange u state rs => cases state <;> first | rfl | exact hsteady.elim
        | _ => rfl
      rw [hres]
      exact (steady_path hw.sound hen hsteady hs).exceeds hw h hfresh
    cases ev with
    | run c =>
      cases hs
      exact Move.exceeds (.run hen) hw h ⟨trivial, rfl⟩
    | ran =>
      cases hs
      exact Move.ran.exceeds hw h ⟨trivial, rfl⟩
    | stateChange u state rs =>
      cases state with
      | writable => exact exceeds_writable hw h hen.2 hs
      | _ => exact absurd rfl hsteady
    | _ => exact absurd hstart hsteady

/-- **What one event does to the count and to the context.** -/
theorem exceeds_step {w w' : World} {ev : Event} (hw : Regular w) (h : Exceeds n own w) (hen : w.Enabled ev)
    (hs : w.step ev = .ok w') : Exceeds (n + (w.resumes ev).toNat) (own ++ ev.toContext.toList) w' := by
  cases hev : ev.toContext with
  | none => simpa using exceeds_calls hw h hen hev hs
  | some cev =>
    obtain rfl : ev = .context cev := by cases ev <;> simp_all [Event.toContext]
    simp only [step, Except.bind_ok_iff, Except.pure_ok_iff] at hs
    obtain ⟨c, hc, rfl⟩ := hs
    exact exceeds_loop hw.sound.formed h hen.1 hen.2 hc

/-- How often the events `evs` have resumed a write. -/
def resumptions (evs : List Event) : Nat :=
  record step (fun w ev _ n => n + (w.resumes ev).toNat) {} 0 evs

theorem run_exceeds {w : World} {evs : List Event} (h : Run Enabled step {} evs w) :
    Exceeds (resumptions evs) (evs.filterMap Event.toContext) w := by
  refine h.induction_snoc (fun evs w => Exceeds (resumptions evs) (evs.filterMap Event.toContext) w) exceeds_init ?_
  intro evs w ev w' hrun he hen hs
  have hres : resumptions (evs ++ [ev]) = resumptions evs + (w.resumes ev).toNat := by
    rw [resumptions, hrun.record_append, record, hs]
    rfl
  have hown : (evs ++ [ev]).filterMap Event.toContext = evs.filterMap Event.toContext ++ ev.toContext.toList := by
    rw [List.filterMap_append]
    cases hev : ev.toContext <;> simp [hev]
  rw [hres, hown]
  exact exceeds_step (reachable_regular ⟨_, hrun⟩) he hen hs

/-- The count, in what can be seen of the sockets. -/
theorem Exceeds.count_eq {w : World} (h : Exceeds n own w) :
    w.ctx.outstandingOpCount = w.pendingOps + w.completions + w.closing + n := by
  have hheld : w.total (SocketImpl.held (·.after)) = w.pendingOps := by
    refine congrArg List.sum (List.map_congr_left fun i _ => List.countP_congr fun slot _ => ?_)
    cases hx : (w.impls i).handlers slot with
    | none => rfl
    | some x => simp [h.placed.after i slot x hx]
  rw [h.count, tally, hheld, total_closeShare]
  rfl

/-- **The count of outstanding operations, in every run**: the operations in a slot, the completions whose handler has
not returned and the sockets whose close is outstanding, and one for every write that was resumed. What it was
incremented for once too often nothing decrements. -/
theorem count_excess {w : World} {evs : List Event} (h : Run Enabled step {} evs w) :
    w.ctx.outstandingOpCount = w.pendingOps + w.completions + w.closing + resumptions evs :=
  (run_exceeds h).count_eq

/-- Two writes are resumed, the first twice, and everything has completed. -/
theorem count_excess_three :
    ∃ w evs, Run Enabled step {} evs w ∧ resumptions evs = 3 ∧ w.pendingOps = 0 ∧ w.completions = 0 ∧
      w.closing = 0 ∧ w.ctx.outstandingOpCount = 3 := by
  obtain ⟨w, hrun, h1, h2, h3⟩ := exists_run Enabled step {}
    [.socket, .bind 0, .asyncConnect 0 default [] [], .stateChange 0 .connect [], .asyncWriteSome 0 [[1, 2, 3]] [],
      .stateChange 0 .writable [{ accepted := 1 }], .stateChange 0 .writable [{ accepted := 2 }],
      .asyncWriteSome 0 [[4]] [], .stateChange 0 .writable [{ accepted := 1 }],
      .run { impl := some 0, slot := .connect, handler := { op := 0, after := true }, ec := .success }, .ran,
      .run { impl := some 0, slot := .send, handler := { op := 1, after := true }, ec := .success, size := 3 }, .ran,
      .run { impl := some 0, slot := .send, handler := { op := 2, after := true }, ec := .success, size := 1 }, .ran]
    (fun w => w.pendingOps = 0 ∧ w.completions = 0 ∧ w.closing = 0) (by decide)
  have heq := count_excess hrun
  exact ⟨w, _, hrun, by decide, h1, h2, h3, by rw [heq, h1, h2, h3]; decide⟩

/-! ## The context of a world -/

/-- Something is outstanding: in a slot, on its way to the user, or to be destroyed by libutp. -/
def Busy (w : World) : Prop :=
  (∃ i slot, w.Pending i slot) ∨ (∃ c ∈ w.posted ++ w.running, c.handler.after = true) ∨
    ∃ i, (w.impls i).decrementClose = true

theorem pendingOps_eq_zero {w : World} (h : Placed w) : w.pendingOps = 0 ↔ ∀ i slot, ¬ w.Pending i slot := by
  rw [pendingOps, List.sum_eq_zero_iff_forall_eq_nat]
  constructor
  · intro hz i slot hp
    by_cases hi : i ∈ w.registeredSockets
    · exact hp (pending_eq_zero.1 (hz _ (List.mem_map_of_mem hi)) slot)
    · exact hp ((h.idle i hi).2.2 slot)
  · intro hn k hmem
    obtain ⟨i, -, rfl⟩ := List.mem_map.1 hmem
    exact pending_eq_zero.2 fun slot => not_not.1 (hn i slot)

theorem closing_eq_zero {w : World} (h : Placed w) : w.closing = 0 ↔ ∀ i, (w.impls i).decrementClose = false := by
  rw [closing, List.countP_eq_zero]
  constructor
  · intro hz i
    by_cases hi : i ∈ w.registeredSockets
    · simpa using hz i hi
    · exact (h.idle i hi).2.1
  · intro hn i _
    simp [hn i]

theorem completions_eq_zero {w : World} : w.completions = 0 ↔ ∀ c ∈ w.posted ++ w.running, c.handler.after = false := by
  rw [completions, List.countP_eq_zero]
  simp only [Bool.not_eq_true]

theorem not_busy_iff {w : World} (h : Placed w) :
    ¬ w.Busy ↔ w.pendingOps = 0 ∧ w.completions = 0 ∧ w.closing = 0 := by
  rw [pendingOps_eq_zero h, completions_eq_zero, closing_eq_zero h, Busy]
  simp only [not_or, not_exists, not_and, Bool.not_eq_true]

theorem Exceeds.pos_iff {w : World} (h : Exceeds n own w) : 0 < w.ctx.outstandingOpCount ↔ w.Busy ∨ 0 < n := by
  have := h.count_eq
  by_cases hb : w.Busy
  · have hne := mt (not_busy_iff h.placed).2 (not_not.2 hb)
    refine iff_of_true ?_ (.inl hb)
    omega
  · obtain ⟨h1, h2, h3⟩ := (not_busy_iff h.placed).1 hb
    simp only [hb, false_or]
    omega

/-- **The context of a world listens and ticks exactly while something is outstanding or a write has been resumed.**
What a run does to its context is a run of the context by itself, by its own events of the world in their order and by
the sockets' counting, which never decrements at zero; the context's own events meet nothing that asserts. -/
theorem context_refines {w : World} {evs : List Event} (h : Run Enabled step {} evs w) :
    (∃ cevs, Run Context.Enabled Context.step {} cevs w.ctx ∧
      cevs.filter (fun ev => !ev.counts) = evs.filterMap Event.toContext) ∧
    (w.ctx.alive = true → w.ctx.multiplexer.flushing = none → w.ctx.ticking = false →
      (.context ∈ w.ctx.multiplexer.recvHandlers ↔ w.Busy ∨ 0 < resumptions evs) ∧
      (w.ctx.ticker.running = true ↔ w.Busy ∨ 0 < resumptions evs)) ∧
    ∀ ev, w.Enabled (.context ev) → ∃ w', w.step (.context ev) = .ok w' := by
  have he := run_exceeds h
  have hc := Context.reachable_listens he.ctx.reachable
  refine ⟨he.ctx, fun ha hf ht => ?_, fun ev hen => ?_⟩
  · have hr : w.ctx.reading = false := by
      by_contra hr
      exact hc.reading ha (by simpa using hr) hf
    have hlink : w.ctx.multiplexer.Linked .context ↔ .context ∈ w.ctx.multiplexer.recvHandlers := by
      simp [Multiplexer.Linked, Multiplexer.pending, hf]
    rw [← he.pos_iff, ← hlink]
    exact ⟨⟨hc.linked ha, hc.links ha hr⟩, hc.running ha⟩
  · obtain ⟨c, hstep⟩ := Context.step_ok hc hen.1
    exact ⟨{ w with ctx := c }, by simp only [step, hstep]; rfl⟩

/-- A socket connects, writes and is closed; everything is run and libutp has destroyed its socket. Since the write was
resumed once, the context still listens. -/
theorem context_refines_resumed :
    ∃ w evs, Run Enabled step {} evs w ∧ ¬ w.Busy ∧ resumptions evs = 1 ∧
      .context ∈ w.ctx.multiplexer.recvHandlers ∧ w.ctx.ticker.running = true := by
  obtain ⟨w, hrun, hidle, ha, hf, ht⟩ := exists_run Enabled step {}
    [.socket, .bind 0, .asyncConnect 0 default [] [], .stateChange 0 .connect [], .asyncWriteSome 0 [[1, 2, 3]] [],
      .stateChange 0 .writable [{ accepted := 3 }], .close 0,
      .run { impl := some 0, slot := .connect, handler := { op := 0, after := true }, ec := .success }, .ran,
      .run { impl := some 0, slot := .send, handler := { op := 1, after := true }, ec := .success, size := 3 }, .ran,
      .stateChange 0 .destroying []]
    (fun w => (w.pendingOps = 0 ∧ w.completions = 0 ∧ w.closing = 0) ∧ w.ctx.alive = true ∧
      w.ctx.multiplexer.flushing = none ∧ w.ctx.ticking = false) (by decide)
  obtain ⟨hlisten, htick⟩ := (context_refines hrun).2.1 ha hf ht
  exact ⟨w, _, hrun, (not_busy_iff (run_exceeds hrun).placed).2 hidle, by decide, hlisten.2 (.inr (by decide)),
    htick.2 (.inr (by decide))⟩

end World

end AsioUtp
