/-
The count of outstanding operations. `increment_outstanding_ops` is called by
`setup_op` and by `close_with_error`, `decrement_outstanding_ops` by the
continuation `exec_after` gives to a handler and by `on_destroy`; the count
is meant to be the number of operations in a slot or on their way to the
user, and of closed sockets libutp has yet to destroy. It is, at every move
(`count_exact`), also where sends fail inside a call, except for one: a write
that is resumed passes through `setup_op` again, and its handler has room for
one continuation (`resumed_write_counted_twice`).
-/
import AsioUtp.Tally

namespace AsioUtp

/-- How many slots are not empty. -/
def SocketImpl.pending (s : SocketImpl) : Nat :=
  [Slot.connect, .accept, .recv, .send].countP fun slot => (s.handlers slot).isSome

namespace World

open Machine

/-- The operations in a slot of some socket. -/
def pendingOps (w : World) : Nat := (w.registeredSockets.map fun i => (w.impls i).pending).sum

/-- The completions with a continuation whose handler has not returned. -/
def completions (w : World) : Nat := (w.posted ++ w.running).countP (·.handler.after)

/-- The sockets with `_decrement_close` set. -/
def closing (w : World) : Nat := w.registeredSockets.countP fun i => (w.impls i).decrementClose

theorem pending_eq_zero {s : SocketImpl} : s.pending = 0 ↔ ∀ slot, s.handlers slot = none := by
  simp only [SocketImpl.pending, List.countP_eq_zero, Option.not_isSome_iff_eq_none]
  exact ⟨fun h slot => h slot (by cases slot <;> simp), fun h slot _ => h slot⟩

/-! ## The invariant -/

/-- The close the socket has outstanding, if any. -/
def closeShare (s : SocketImpl) : Nat := s.decrementClose.toNat

structure Counted (w : World) : Prop where
  placed : Placed w
  count : w.ctx.outstandingOpCount = w.tally (·.after) + w.total closeShare

theorem counted_init : Counted {} := ⟨placed_init, rfl⟩

/-- No handler that has a continuation gets another: a pending write is not resumed. -/
def Label.CountsOnce : Label → Prop
  | .take _ => False
  | .direct c => c.handler.after = false
  | _ => True

/-- A move keeps the count exact if it counts the handlers it brings in and takes away, and the
closes. -/
theorem Counted.move {w w' : World} {l : Label} (hf : Formed w) (h : Counted w) (hm : Move w l w')
    (hcount : w'.ctx.outstandingOpCount + l.lost (·.after) w + w.total closeShare =
      w.ctx.outstandingOpCount + l.gained (·.after) + w'.total closeShare) : Counted w' := by
  refine ⟨placed_move hf h.placed hm, ?_⟩
  have htally := tally_move (·.after) hf h.placed hm
  have := h.count
  unfold Counts at htally
  omega

/-- Every handler in a slot has its continuation. -/
theorem Counted.total_held {w : World} (h : Counted w) : w.total (SocketImpl.held (·.after)) = w.pendingOps := by
  refine congrArg List.sum (List.map_congr_left fun i _ => List.countP_congr fun slot _ => ?_)
  cases hx : (w.impls i).handlers slot with
  | none => rfl
  | some x => simp [h.placed.after i slot x hx]

theorem total_closeShare (w : World) : w.total closeShare = w.closing := by
  unfold total closing
  induction w.registeredSockets with
  | nil => rfl
  | cons i l ih =>
    rw [List.map_cons, List.sum_cons, List.countP_cons, ih, closeShare]
    cases (w.impls i).decrementClose with
    | false => simp
    | true =>
      simp only [Bool.toNat_true, if_true]
      omega

theorem Counted.close_pos {w : World} (hf : Formed w) (h : Counted w) {i : Nat}
    (hd : (w.impls i).decrementClose = true) : 0 < w.ctx.outstandingOpCount := by
  have hi := h.placed.registered_of_decrement hd
  have hle := sum_map_update hf.nodup (fun j => closeShare (w.impls j)) hi 0
  have hone : closeShare (w.impls i) = 1 := by rw [closeShare, hd, Bool.toNat_true]
  have := h.count
  unfold total at this
  omega

theorem Counted.running_pos {w : World} (h : Counted w) {c : Completion} (hc : c ∈ w.running)
    (hafter : c.handler.after = true) : 0 < w.ctx.outstandingOpCount := by
  have hpos : 0 < w.due (·.after) := List.countP_pos_iff.2 ⟨c, by simp [hc], hafter⟩
  have := h.count
  unfold tally at this
  omega

/-- The receive loop and the ticker do not count. -/
theorem loop_count {w : World} {ev : Context.Event} {c : Context} (hen : w.ContextEnabled ev)
    (hc : w.ctx.step ev = .ok c) : c.outstandingOpCount = w.ctx.outstandingOpCount := by
  by_cases hd : ev = .destroy
  · subst hd
    cases hc
    rfl
  · by_cases hd' : ev = .destroyed
    · subst hd'
      cases hc
      rfl
    · have hinc : ev ≠ .increment := fun he => by subst he; exact hen
      have hdec : ev ≠ .decrement := fun he => by subst he; exact hen
      exact (Context.step_loop hc hinc hdec hd hd').2.2

/-- A move that brings in no handler with a continuation, takes none away, and leaves the count. -/
theorem Counted.plain {w w' : World} {l : Label} (hf : Formed w) (h : Counted w) (hm : Move w l w')
    (hgained : l.gained (·.after) = 0) (hlost : l.lost (·.after) w = 0)
    (hcount : w'.ctx.outstandingOpCount = w.ctx.outstandingOpCount)
    (htotal : w'.total closeShare = w.total closeShare) : Counted w' :=
  h.move hf hm (by rw [hgained, hlost, hcount, htotal])

/-- An operation that starts. -/
theorem Counted.start {w w' : World} {l : Label} {c : Context} (hf : Formed w) (h : Counted w) (hm : Move w l w')
    (hgained : l.gained (·.after) = 1) (hlost : l.lost (·.after) w = 0)
    (hinc : w.ctx.incrementOutstandingOps = .ok c) (hctx : w'.ctx = c)
    (htotal : w'.total closeShare = w.total closeShare) : Counted w' := by
  refine h.move hf hm ?_
  rw [hgained, hlost, hctx, (Context.increment_alive hinc).2.2, htotal]

/-- A close that starts or ends. -/
theorem Counted.close {w w' : World} {l : Label} {i : Nat} {s : SocketImpl} (hf : Formed w) (h : Counted w)
    (hm : Move w l w') (hi : i ∈ w.registeredSockets) (hreg : w'.registeredSockets = w.registeredSockets)
    (himpl : w'.impls = Function.update w.impls i s) (hgained : l.gained (·.after) = 0)
    (hlost : l.lost (·.after) w = 0)
    (hcount : w'.ctx.outstandingOpCount + closeShare (w.impls i) = w.ctx.outstandingOpCount + closeShare s) :
    Counted w' := by
  have htotal := total_setImpl closeShare hf hi hreg himpl
  refine h.move hf hm ?_
  rw [hgained, hlost]
  omega

theorem counted_finish {w w' : World} (hf : Formed w) (h : Counted w) {i : Nat} (hclosed : (w.impls i).closed = true)
    (hfin : w.finishClose i = .ok w') : Counted w' := by
  have hi : i ∈ w.registeredSockets := by
    by_contra hi
    rw [(h.placed.idle i hi).1] at hclosed
    cases hclosed
  have hm : Move w (.finish i) w' := .finish hclosed hfin
  obtain ⟨hd, c, hc, rfl⟩ := finishClose_ok_iff.1 hfin
  refine h.close hf hm hi rfl rfl rfl rfl ?_
  show c.outstandingOpCount + (w.impls i).decrementClose.toNat = w.ctx.outstandingOpCount + true.toNat
  rw [(Context.increment_alive hc).2.2, hd]
  rfl

theorem counted_decrement {w : World} (hf : Formed w) (h : Counted w) {i : Nat}
    (hd : (w.impls i).decrementClose = true) :
    Counted (({ w with ctx := w.ctx.decrementOutstandingOps } : World).setImpl i
      { w.impls i with decrementClose := false }) := by
  have hi := h.placed.registered_of_decrement hd
  have hpos := h.close_pos hf hd
  obtain ⟨t, m, heq⟩ := Context.decrement_spec hpos
  refine h.close hf (.decrement hd) hi rfl rfl rfl rfl ?_
  show w.ctx.decrementOutstandingOps.outstandingOpCount + (w.impls i).decrementClose.toNat =
    w.ctx.outstandingOpCount + false.toNat
  rw [heq, hd, Bool.toNat_true, Bool.toNat_false]
  show w.ctx.outstandingOpCount - 1 + 1 = w.ctx.outstandingOpCount + 0
  omega

theorem counted_ran {w : World} (hf : Formed w) (h : Counted w) : Counted w.ran := by
  have hm : Move w .ran w.ran := .ran
  cases hrun : w.running with
  | nil =>
    have hsame : w.ran = w := by simp [World.ran, hrun]
    rw [hsame]
    exact h
  | cons c rest =>
    have htotal : w.ran.total closeShare = w.total closeShare := by
      simp only [World.ran, hrun]
      split <;> rfl
    refine h.move hf hm ?_
    rw [htotal]
    cases hafter : c.handler.after with
    | false => simp [World.ran, hrun, hafter, Label.gained, Label.lost]
    | true =>
      obtain ⟨t, m, heq⟩ := Context.decrement_spec (h.running_pos (c := c) (by simp [hrun]) hafter)
      have hpos := h.running_pos (c := c) (by simp [hrun]) hafter
      simp only [World.ran, hrun, hafter, if_true, heq, Label.gained, Label.lost, List.head?_cons, Option.any_some,
        Bool.toNat_true]
      omega

theorem counted_move {w w' : World} {l : Label} (hf : Formed w) (h : Counted w) (hok : l.CountsOnce)
    (hm : Move w l w') : Counted w' := by
  have hmove := hm
  cases hm with
  | setup _ _ _ _ _ hinc => exact h.start hf hmove rfl rfl hinc rfl (total_same rfl (update_field closeShare rfl))
  | connect _ _ hinc => exact h.start hf hmove rfl rfl hinc rfl (total_same rfl (update_field closeShare rfl))
  | waiting _ _ _ hinc => exact h.start hf hmove rfl rfl hinc rfl (total_same rfl (update_field closeShare rfl))
  | take => exact hok.elim
  | direct =>
    have hgained : (Label.direct _).gained (·.after) = 0 := congrArg Bool.toNat hok
    exact h.plain hf hmove hgained rfl rfl rfl
  | @shut i ec _ _ _ =>
    obtain ⟨utp, heq, -⟩ := shutUtp_eq w i ec
    rw [heq] at hmove ⊢
    exact h.plain hf hmove rfl rfl rfl (total_same rfl (update_field closeShare rfl))
  | finish hclosed hfin => exact counted_finish hf h hclosed hfin
  | data hs | received hs =>
    refine h.plain hf hmove rfl rfl rfl (total_same rfl (update_field closeShare ?_))
    rw [closeShare, closeShare, hs.decrementClose]
  | post | eof | accept | destroy =>
    exact h.plain hf hmove rfl rfl rfl (total_same rfl (update_field closeShare rfl))
  | decrement hd => exact counted_decrement hf h hd
  | ran => exact counted_ran hf h
  | loop _ hen hc => exact h.plain hf hmove rfl rfl (loop_count hen hc) rfl
  | @bind v _ _ =>
    refine h.plain hf hmove rfl rfl ?_ (total_bind hf v rfl)
    unfold World.bind
    split <;> rfl
  | moveConstruct =>
    refine h.plain hf hmove rfl rfl ?_ ?_ <;> unfold World.moveConstruct <;> dsimp only <;> split
    · rfl
    · rfl
    · exact total_same rfl (update_field closeShare rfl)
    · rfl
  | run | wrote | create | die | number | socket | release | assign => exact h.plain hf hmove rfl rfl rfl rfl

/-! ## Every run -/

/-- No write is resumed: a socket with a pending write is not notified that it is writable. -/
def ResumesNoWrite (w : World) : Event → Prop
  | .stateChange u .writable _ => ∀ i ∈ (w.utp u).userdata, ¬ w.Pending i .send
  | _ => True

instance (w : World) : (ev : Event) → Decidable (w.ResumesNoWrite ev)
  | .stateChange u .writable _ => inferInstanceAs (Decidable (∀ i ∈ (w.utp u).userdata, _))
  | .stateChange _ .connect _ | .stateChange _ .eof _ | .stateChange _ .destroying _
  | .socket | .bind _ | .moveConstruct _ | .moveAssign _ _ | .close _ | .asyncConnect _ _ _ _ | .asyncAccept _
  | .asyncWriteSome _ _ _ | .asyncReadSome _ _ | .sendto _ | .onRead _ _ _ | .incoming _ _ _ | .run _ | .ran
  | .context _ => inferInstanceAs (Decidable True)

theorem starts_countsOnce {w : World} {ev : Event} (hr : w.ResumesNoWrite ev) :
    Starts (fun _ l => l.CountsOnce) w ev := by
  cases ev with
  | asyncConnect v ep ecs onClose => exact ⟨rfl, fun i _ => trivial⟩
  | asyncAccept v => exact ⟨rfl, fun i _ => trivial⟩
  | asyncWriteSome v bufs rs => exact ⟨rfl, fun i _ => ⟨trivial, rfl⟩⟩
  | asyncReadSome v bufs => exact ⟨rfl, fun i _ => ⟨fun _ => trivial, trivial, fun _ => rfl⟩⟩
  | stateChange u state rs =>
    intro i hi
    cases state with
    | writable => exact fun x hx => absurd (by rw [Pending, hx]; simp) (hr i hi)
    | connect | eof | destroying => trivial
  | onRead u buf ecs => exact fun _ _ => trivial
  | _ => trivial

theorem counted_step {w w' : World} (hw : Sound w) (h : Counted w) {ev : Event} (hen : w.Enabled ev)
    (hr : w.ResumesNoWrite ev) (hs : w.step ev = .ok w') : Sound w' ∧ Counted w' := by
  have hkeep : ∀ s s', Sound s ∧ Counted s → Moves (fun _ l => l.CountsOnce) s s' → Sound s' ∧ Counted s' := by
    rintro s s' ⟨hs, hc⟩ hm
    refine ⟨sound_move hs hm, ?_⟩
    obtain ⟨l, hl, hmove⟩ := hm
    exact counted_move hs.formed hc hl hmove
  have htr := hw.starts (fun _ l hl => by cases l <;> trivial) (fun _ l hl => by cases l <;> trivial) hen
    (starts_countsOnce hr)
  exact (htr.outcome _ hkeep ⟨hw, h⟩).1 w' hs

/-- **The count of outstanding operations is exact** in every run that resumes no pending write:
it is the number of operations in a slot, of completions whose handler has not returned, and of
sockets with `_decrement_close` set. So it is positive where it is about to be decremented, and zero
exactly when nothing is outstanding. -/
theorem count_exact {w : World} (h : Reachable (fun w ev => w.Enabled ev ∧ w.ResumesNoWrite ev) step {} w) :
    w.ctx.outstandingOpCount = w.pendingOps + w.completions + w.closing ∧
    (∀ c ∈ w.running, c.handler.after = true → 0 < w.ctx.outstandingOpCount) ∧
    (∀ i, (w.impls i).decrementClose = true → 0 < w.ctx.outstandingOpCount) ∧
    (w.ctx.outstandingOpCount = 0 ↔ (∀ i slot, ¬ w.Pending i slot) ∧
      (∀ c ∈ w.posted ++ w.running, c.handler.after = false) ∧ ∀ i, (w.impls i).decrementClose = false) := by
  obtain ⟨hw, hcount⟩ : Sound w ∧ Counted w :=
    h.invariant (fun w => Sound w ∧ Counted w)
      (fun w ev w' hw hok hs => counted_step hw.1 hw.2 hok.1 hok.2 hs) ⟨sound_init, counted_init⟩
  have heq : w.ctx.outstandingOpCount = w.pendingOps + w.completions + w.closing := by
    rw [hcount.count, tally, hcount.total_held, total_closeShare]
    rfl
  have hpending : w.pendingOps = 0 ↔ ∀ i slot, ¬ w.Pending i slot := by
    rw [pendingOps, List.sum_eq_zero_iff_forall_eq_nat]
    constructor
    · intro hz i slot hp
      by_cases hi : i ∈ w.registeredSockets
      · exact hp (pending_eq_zero.1 (hz _ (List.mem_map_of_mem hi)) slot)
      · exact hp ((hcount.placed.idle i hi).2.2 slot)
    · intro hn n hmem
      obtain ⟨i, -, rfl⟩ := List.mem_map.1 hmem
      exact pending_eq_zero.2 fun slot => not_not.1 (hn i slot)
  have hclosing : w.closing = 0 ↔ ∀ i, (w.impls i).decrementClose = false := by
    rw [closing, List.countP_eq_zero]
    constructor
    · intro hz i
      by_cases hi : i ∈ w.registeredSockets
      · simpa using hz i hi
      · exact (hcount.placed.idle i hi).2.1
    · intro hn i _
      simp [hn i]
  have hcompletions : w.completions = 0 ↔ ∀ c ∈ w.posted ++ w.running, c.handler.after = false := by
    rw [completions, List.countP_eq_zero]
    simp
  refine ⟨heq, fun c hc hafter => hcount.running_pos hc hafter, fun i hi => hcount.close_pos hw.formed hi, ?_⟩
  rw [← hpending, ← hclosing, ← hcompletions]
  omega

/-- A socket is closed with a connect and a read pending: two completions are on their way, and the
close is outstanding. -/
theorem count_exact_closed :
    ∃ w, Run (fun w ev => w.Enabled ev ∧ w.ResumesNoWrite ev) step {}
        [.socket, .bind 0, .asyncConnect 0 default [] [.other 5], .asyncReadSome 0 [[0]], .stateChange 0 .writable [],
          .close 0] w ∧
      w.pendingOps = 0 ∧ w.completions = 2 ∧ w.closing = 1 ∧ w.ctx.outstandingOpCount = 3 := by
  obtain ⟨w, hrun, h1, h2, h3⟩ := exists_run (fun w ev => Enabled w ev ∧ ResumesNoWrite w ev) step {}
    [.socket, .bind 0, .asyncConnect 0 default [] [.other 5], .asyncReadSome 0 [[0]], .stateChange 0 .writable [],
      .close 0]
    (fun w => w.pendingOps = 0 ∧ w.completions = 2 ∧ w.closing = 1) (by decide)
  have heq := (count_exact ⟨_, hrun⟩).1
  exact ⟨w, hrun, h1, h2, h3, by omega⟩

/-- A write waits, is resumed and completes. When the handlers of both operations have returned,
nothing is outstanding, and the count is one. -/
theorem resumed_write_counted_twice :
    ∃ w, Run Enabled step {}
        [.socket, .bind 0, .asyncConnect 0 default [] [], .stateChange 0 .connect [], .asyncWriteSome 0 [[1, 2, 3]] [],
          .stateChange 0 .writable [{ accepted := 3 }],
          .run { impl := some 0, slot := .connect, handler := { op := 0, after := true }, ec := .success }, .ran,
          .run { impl := some 0, slot := .send, handler := { op := 1, after := true }, ec := .success, size := 3 },
          .ran] w ∧
      w.pendingOps = 0 ∧ w.completions = 0 ∧ w.closing = 0 ∧ w.ctx.outstandingOpCount = 1 :=
  ⟨_, run_of_exec rfl, by decide, by decide, by decide, rfl⟩

end World

end AsioUtp
