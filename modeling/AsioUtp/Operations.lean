/-
What holds of the operations in every run. The handler of a call is at one
place at a time (`Numbered`): in a slot, posted or being called, never at two
and never lost until it returns. And whoever waits for data has received none
it could have been given (`Reading`).
-/
import AsioUtp.Tally

namespace AsioUtp

namespace World

open Machine

/-! ## One handler for every call -/

/-- At how many places the handler of call `k` is. -/
def places (k : Nat) (w : World) : Nat := w.tally (·.op == k)

structure Numbered (w : World) : Prop where
  placed : Placed w
  once : ∀ k, w.places k ≤ 1
  fresh : ∀ k, w.ops ≤ k → w.places k = 0

theorem numbered_init : Numbered {} := ⟨placed_init, fun _ => Nat.zero_le _, fun _ _ => rfl⟩

/-- The handler of a call that has been made, and is nowhere yet. -/
def Unplaced (w : World) (x : Handler) : Prop := x.op < w.ops ∧ w.places x.op = 0

/-- An operation starts with a handler that is nowhere else. -/
def StartsUnplaced (w : World) : Label → Prop
  | .setup _ _ x | .connect _ x | .waiting _ x => Unplaced w x
  | .direct c => Unplaced w c.handler
  | _ => True

theorem Move.ops_le {w w' : World} {l : Label} (hm : Move w l w') : w.ops ≤ w'.ops := by
  cases hm with
  | @shut i ec _ _ _ =>
    obtain ⟨utp, heq, -⟩ := shutUtp_eq w i ec
    rw [heq]
  | finish _ hf =>
    obtain ⟨-, c, -, rfl⟩ := finishClose_ok_iff.1 hf
    exact le_rfl
  | bind =>
    unfold World.bind
    split <;> exact le_rfl
  | moveConstruct =>
    unfold World.moveConstruct
    dsimp only
    split <;> exact le_rfl
  | ran =>
    unfold World.ran
    split
    · exact le_rfl
    · dsimp only
      split <;> exact le_rfl
  | number => exact Nat.le_succ _
  | _ => exact le_rfl

/-- What a move brings in is the handler of one call. -/
theorem StartsUnplaced.gained {w : World} {l : Label} (h : StartsUnplaced w l) (k : Nat) :
    l.gained (·.op == k) = 0 ∨ l.gained (·.op == k) = 1 ∧ k < w.ops ∧ w.places k = 0 := by
  have key : ∀ x : Handler, Unplaced w x →
      (x.op == k).toNat = 0 ∨ (x.op == k).toNat = 1 ∧ k < w.ops ∧ w.places k = 0 := by
    intro x hx
    by_cases hk : x.op = k
    · subst hk
      exact .inr ⟨by simp, hx⟩
    · exact .inl (by simp [hk])
  cases l with
  | setup i slot x => exact key x h
  | connect i x => exact key x h
  | waiting i x => exact key x h
  | direct c => exact key c.handler h
  | _ => exact .inl rfl

theorem numbered_move {w w' : World} {l : Label} (hf : Formed w) (h : Numbered w) (hok : StartsUnplaced w l)
    (hm : Move w l w') : Numbered w' := by
  have hplaces : ∀ k, w'.places k + l.lost (·.op == k) w = w.places k + l.gained (·.op == k) := fun k =>
    tally_move (·.op == k) hf h.placed hm
  refine ⟨placed_move hf h.placed hm, fun k => ?_, fun k hk => ?_⟩
  · have := hplaces k
    have := h.once k
    rcases hok.gained k with hg | ⟨hg, -, hz⟩ <;> omega
  · have := hplaces k
    have := hm.ops_le
    have := h.fresh k (by omega)
    rcases hok.gained k with hg | ⟨hg, hlt, -⟩ <;> omega

/-- What changes no slot and completes nothing moves no handler. -/
theorem places_same (k : Nat) {w w' : World} (hreg : w'.registeredSockets = w.registeredSockets)
    (himpl : ∀ j, (w'.impls j).handlers = (w.impls j).handlers) (hp : w'.posted = w.posted)
    (hr : w'.running = w.running) : w'.places k = w.places k := by
  have hdue : w'.due (·.op == k) = w.due (·.op == k) := by rw [due, due, hp, hr]
  have h : Counts (·.op == k) w w' 0 0 := tally_same hreg himpl hdue
  exact h

theorem starts_unplaced {w : World} (hf : Formed w) (h : Numbered w) (ev : Event) : Starts StartsUnplaced w ev := by
  have hnew : Unplaced w.numberOp w.nextHandler := ⟨Nat.lt_succ_self _, h.fresh _ le_rfl⟩
  have hset : ∀ i s, s.handlers = (w.impls i).handlers → Unplaced (w.numberOp.setImpl i s) w.nextHandler := by
    intro i s hs
    have hsame : (w.numberOp.setImpl i s).places w.ops = w.numberOp.places w.ops :=
      places_same w.ops rfl (update_field SocketImpl.handlers hs) rfl rfl
    exact ⟨hnew.1, hsame.trans hnew.2⟩
  cases ev with
  | asyncConnect v ep ecs onClose => exact ⟨hnew, fun i _ => hnew⟩
  | asyncAccept v => exact ⟨hnew, fun i _ => hnew⟩
  | asyncWriteSome v bufs rs => exact ⟨hnew, fun i _ => ⟨hset i _ rfl, hset i _ rfl⟩⟩
  | asyncReadSome v bufs => exact ⟨hnew, fun i _ => ⟨fun _ => trivial, hset i _ rfl, fun _ => hset i _ rfl⟩⟩
  | stateChange u state rs =>
    intro i _
    cases state with
    | writable =>
      intro x hx
      -- Taken out of its slot, the handler is nowhere.
      have hmove := tally_move (·.op == x.op) hf h.placed (.take hx)
      have hone := h.once x.op
      simp only [Counts, Label.lost, Label.gained, hx, Option.any_some, beq_self_eq_true, Bool.toNat_true] at hmove
      have hun : Unplaced (w.setImpl i ((w.impls i).setHandler .send none)) x := by
        refine ⟨?_, ?_⟩
        · by_contra hlt
          have := h.fresh x.op (by simpa [setImpl] using hlt)
          unfold places at this
          omega
        · unfold places at hone ⊢
          omega
      exact ⟨trivial, hun, hun⟩
    | connect | eof | destroying => trivial
  | onRead u buf ecs => exact fun _ _ => trivial
  | _ => trivial

theorem numbered_step {w w' : World} (hw : Sound w) (h : Numbered w) {ev : Event} (hen : w.Enabled ev)
    (hs : w.step ev = .ok w') : Sound w' ∧ Numbered w' := by
  have hkeep : ∀ s s', Sound s ∧ Numbered s → Moves StartsUnplaced s s' → Sound s' ∧ Numbered s' := by
    rintro s s' ⟨hs, hn⟩ hm
    refine ⟨sound_move hs hm, ?_⟩
    obtain ⟨l, hl, hmove⟩ := hm
    exact numbered_move hs.formed hn hl hmove
  have htr := hw.starts (fun _ l hl => by cases l <;> trivial) (fun _ l hl => by cases l <;> trivial) hen
    (starts_unplaced hw.formed h ev)
  exact (htr.outcome _ hkeep ⟨hw, h⟩).1 w' hs

/-- **The handler of every call is at one place at most**, in every run. -/
theorem reachable_numbered {w : World} (h : Reachable Enabled step {} w) : Sound w ∧ Numbered w :=
  h.invariant (fun w => Sound w ∧ Numbered w) (fun _ _ _ hw hen hs => numbered_step hw.1 hw.2 hen hs)
    ⟨sound_init, numbered_init⟩

/-! ## Whoever waits for data -/

/-- A pending read has buffers to be filled, and nothing was received that it could have had. -/
def Reading (w : World) : Prop :=
  ∀ i, w.Pending i .recv → (w.impls i).rxBufferQueue = [] ∧ (w.impls i).rxBuffers.flatten ≠ []

/-- The moves that neither start a read nor touch what has been received. -/
def Label.ReadsNothing : Label → Prop
  | .setup _ slot _ => slot ≠ .recv
  | .received _ => False
  | _ => True

theorem Reading.setImpl {w w' : World} (h : Reading w) {i : Nat} {s : SocketImpl}
    (himpl : w'.impls = Function.update w.impls i s)
    (hs : s.handlers .recv ≠ none → s.rxBufferQueue = [] ∧ s.rxBuffers.flatten ≠ []) : Reading w' := by
  simp only [Reading, Pending, himpl]
  exact (Function.forall_update_iff w.impls fun _ s =>
    s.handlers .recv ≠ none → s.rxBufferQueue = [] ∧ s.rxBuffers.flatten ≠ []).2 ⟨hs, fun j _ => h j⟩

/-- Setting another slot, or emptying this one. -/
theorem Reading.setHandler {w : World} (h : Reading w) (i : Nat) (slot : Slot) (x : Option Handler)
    (hx : slot = .recv → x = none) (hp : ((w.impls i).setHandler slot x).handlers .recv ≠ none) :
    (w.impls i).rxBufferQueue = [] ∧ (w.impls i).rxBuffers.flatten ≠ [] := by
  refine h i ?_
  rw [setHandler_handlers] at hp
  by_cases hs : Slot.recv = slot
  · rw [← hs, Function.update_self] at hp
    exact absurd (hx hs.symm) hp
  · rwa [Function.update_of_ne hs] at hp

theorem reading_move {w w' : World} {l : Label} (h : Reading w) (hok : l.ReadsNothing) (hm : Move w l w') :
    Reading w' := by
  cases hm with
  | setup => exact h.setImpl rfl (h.setHandler _ _ _ fun he => absurd he hok)
  | @connect i x _ _ _ _ _ _ =>
    exact h.setImpl rfl fun hp => h.setHandler i .connect (some { x with after := true }) (by simp) hp
  | @waiting i x _ _ _ _ _ =>
    exact h.setImpl rfl fun hp => h.setHandler i .accept (some { x with after := true }) (by simp) hp
  | take | post => exact h.setImpl rfl (h.setHandler _ _ _ fun _ => rfl)
  | @accept i _ _ _ _ _ _ _ _ _ _ _ => exact h.setImpl rfl fun hp => h.setHandler i .accept none (by simp) hp
  | @shut i ec _ _ _ =>
    obtain ⟨utp, heq, -⟩ := shutUtp_eq w i ec
    exact h.setImpl (by rw [heq]) fun hx => absurd rfl hx
  | finish _ hf =>
    obtain ⟨-, c, -, rfl⟩ := finishClose_ok_iff.1 hf
    exact h.setImpl rfl (h _)
  | data hs =>
    refine h.setImpl rfl fun hp => ?_
    rw [hs.handlers] at hp
    rw [hs.rxBufferQueue, hs.rxBuffers]
    exact h _ hp
  | received => exact hok.elim
  | eof | decrement => exact h.setImpl rfl (h _)
  | destroy => exact h.setImpl rfl fun hx => absurd rfl hx
  | bind =>
    unfold World.bind
    split
    · exact h
    · exact h.setImpl rfl fun hx => absurd rfl hx
  | moveConstruct =>
    unfold World.moveConstruct
    dsimp only
    split
    · exact h.setImpl rfl (h _)
    · exact h
  | ran =>
    unfold World.ran
    split
    · exact h
    · dsimp only
      split <;> exact h
  | direct | wrote | create | die | number | socket | release | assign | run | loop => exact h

theorem postOp_ok {w w' : World} {i : Nat} {slot : Slot} {ec : ErrorCode} {size : Nat} {data : List UInt8}
    (h : w.postOp i slot ec size data = .ok w') :
    ∃ x, (w.impls i).handlers slot = some x ∧ w' = (w.setImpl i ((w.impls i).setHandler slot none)).post
      { impl := some i, slot, handler := x, ec, size, data } := by
  unfold postOp at h
  split at h
  · cases h
  · next x hx =>
    cases h
    exact ⟨x, hx, rfl⟩

/-- `do_read` changes one impl, and leaves a read pending only where there is nothing to give it. -/
theorem doRead_impls {w w' : World} {i : Nat} {x : Handler} (h : w.doRead i x = .ok w') :
    ∃ s, w'.impls = Function.update w.impls i s ∧
      (s.handlers .recv ≠ none → s.rxBufferQueue = [] ∧ s.rxBuffers.flatten ≠ []) := by
  unfold doRead at h
  simp only [Except.bind_ok_iff, Except.require_ok_iff] at h
  obtain ⟨-, hnone, h⟩ := h
  have hidle : ∀ ec, w' = w.post { impl := some i, slot := .recv, handler := x, ec } →
      ∃ s, w'.impls = Function.update w.impls i s ∧
        (s.handlers .recv ≠ none → s.rxBufferQueue = [] ∧ s.rxBuffers.flatten ≠ []) := by
    rintro ec rfl
    exact ⟨w.impls i, by simp [post], fun hp => absurd hnone hp⟩
  split at h
  · exact hidle _ (Except.pure_ok_iff.1 h).symm
  · next hopen =>
    split at h
    · exact hidle _ (Except.pure_ok_iff.1 h).symm
    · next hlen =>
      simp only [Except.bind_ok_iff] at h
      obtain ⟨w₁, hsetup, h⟩ := h
      obtain ⟨himpl, -, -⟩ := setupOp_impl hsetup
      have hself : w₁.impls i = (w.impls i).setHandler .recv (some { x with after := true }) := by
        rw [himpl, Function.update_self]
      have hupdate : ∀ s, Function.update w₁.impls i s = Function.update w.impls i s := fun s => by
        rw [himpl, Function.update_idem]
      split at h
      · next hqueue =>
        split at h
        · next heof =>
          obtain ⟨heq, -⟩ := closeWithError_simple .connectionReset (w := w₁) (i := i)
            (by rw [hself]; simpa [SocketImpl.setHandler] using hopen) (.inr (by rw [hself]; exact heof))
          rw [heq, shut_eq] at h
          cases h
          exact ⟨_, hupdate _, fun hp => absurd rfl hp⟩
        · cases h
          refine ⟨_, himpl, fun _ => ⟨hqueue, fun hnil => hlen ?_⟩⟩
          have hnil : (w.impls i).rxBuffers.flatten = [] := hnil
          rw [hnil]
          rfl
      · simp only [Except.bind_ok_iff] at h
        obtain ⟨queue, -, h⟩ := h
        obtain ⟨y, -, rfl⟩ := postOp_ok h
        refine ⟨({ w₁.impls i with
          rxBuffers := Scatter.copy (w.impls i).rxBuffers (unread (w.impls i).rxBufferQueue)
          rxBufferQueue := queue } : SocketImpl).setHandler .recv none, ?_, fun hp => absurd (by simp) hp⟩
        simp only [post, setImpl, Function.update_self, Function.update_idem]
        exact hupdate _

theorem reading_asyncReadSome {w w' : World} (h : Reading w) {v : Nat} {bufs : List (List UInt8)}
    (hs : w.asyncReadSome v bufs = .ok w') : Reading w' := by
  simp only [asyncReadSome] at hs
  split at hs
  · cases hs
    exact h
  · next i _ =>
    obtain ⟨s, himpl, hread⟩ := doRead_impls hs
    refine h.setImpl (i := i) ?_ hread
    rw [himpl]
    exact Function.update_idem _ _ _

theorem fillBuffers_nil (ds : List (List UInt8)) : fillBuffers ds [] = (ds, 0, []) := by
  induction ds with
  | nil => rfl
  | cons d ds ih => simp [fillBuffers, ih]

/-- The loop of `on_receive` writes over the first buffer alone: it ends there if that does not take
everything, and has nothing left for the others if it does. -/
theorem fillBuffers_cons (d : List UInt8) (ds : List (List UInt8)) (src : List UInt8) :
    fillBuffers (d :: ds) src = (Scatter.overwrite d src :: ds, min d.length src.length, src.drop d.length) := by
  simp only [fillBuffers]
  split
  · next hleft =>
    have hlt : d.length < src.length := by
      by_contra hle
      exact hleft (List.drop_eq_nil_of_le (by omega))
    rw [Nat.min_eq_left hlt.le]
  · next hleft =>
    have hle : src.length ≤ d.length := by
      have := List.drop_eq_nil_iff.1 (not_not.1 hleft)
      omega
    rw [Nat.min_eq_right hle, List.drop_length, fillBuffers_nil, List.drop_eq_nil_of_le hle, Nat.add_zero]

/-- Where the first buffer takes all of it, nothing is queued, and there are buffers as before. -/
theorem fill_all {s : SocketImpl} {buf : List UInt8} (hbufs : s.rxBuffers.flatten ≠ [])
    (hall : (fillBuffers s.rxBuffers buf).2.1 = buf.length) :
    (fill s buf).rxBufferQueue = s.rxBufferQueue ∧ (fill s buf).rxBuffers.flatten ≠ [] := by
  cases hds : s.rxBuffers with
  | nil =>
    rw [hds] at hbufs
    exact absurd rfl hbufs
  | cons d ds =>
    rw [hds, fillBuffers_cons] at hall
    have hle : buf.length ≤ d.length := by
      have hall : min d.length buf.length = buf.length := hall
      omega
    simp only [fill, hds, fillBuffers_cons, List.drop_eq_nil_of_le hle, if_true, true_and]
    intro hnil
    apply hbufs
    have hlen := congrArg List.length hnil
    rw [List.flatten_cons, List.length_append, Scatter.length_overwrite] at hlen
    rw [hds, List.flatten_cons]
    exact List.length_eq_zero_iff.1 (by rw [List.length_append]; exact hlen)

theorem reading_onReceive {w w' : World} (h : Reading w) {i : Nat} {buf : List UInt8} {ecs : List ErrorCode}
    (hs : w.onReceive i buf ecs = .ok w') : Reading w' := by
  unfold onReceive at hs
  dsimp only at hs
  split at hs
  · next hnone =>
    cases hs
    exact h.setImpl rfl fun hp => absurd hnone hp
  · next x hx =>
    obtain ⟨hqueue, hbufs⟩ := h i (by rw [Pending, hx]; simp)
    simp only [Except.bind_ok_iff] at hs
    obtain ⟨-, -, w₁, hdrained, hpost⟩ := hs
    obtain ⟨y, -, rfl⟩ := postOp_ok hpost
    unfold drainedIf at hdrained
    split at hdrained
    · next hall =>
      -- Nothing was left to be queued, so the read could still be waiting while the sends are made.
      obtain ⟨h1, h2⟩ := fill_all hbufs (by simpa using hall)
      have hfill : Reading (w.setImpl i (fill (w.impls i) buf)) := h.setImpl rfl fun _ => ⟨h1.trans hqueue, h2⟩
      have hread : Reading w₁ := by
        unfold utpReadDrained at hdrained
        split at hdrained
        · cases hdrained
        · simp only [Except.bind_ok_iff] at hdrained
          obtain ⟨-, -, hsends⟩ := hdrained
          have htr := sends_closes (w.setImpl i (fill (w.impls i) buf)) ecs
          rw [hsends] at htr
          refine htr.keeps Reading (fun s s' hs hm => ?_) hfill
          obtain ⟨l, hl, hm⟩ := hm
          exact reading_move hs (by cases l <;> trivial) hm
      exact hread.setImpl rfl fun hp => absurd (by simp) hp
    · cases hdrained
      refine h.setImpl (i := i) (s := (fill (w.impls i) buf).setHandler .recv none) ?_ fun hp => absurd (by simp) hp
      simp only [post, setImpl, Function.update_self, Function.update_idem]

theorem starts_readsNothing {w : World} {ev : Event} (hread : ∀ v bufs, ev ≠ .asyncReadSome v bufs)
    (hrecv : ∀ u buf ecs, ev ≠ .onRead u buf ecs) : Starts (fun _ l => l.ReadsNothing) w ev := by
  cases ev with
  | asyncConnect v ep ecs onClose => exact ⟨trivial, fun i _ => trivial⟩
  | asyncAccept v => exact ⟨trivial, fun i _ => trivial⟩
  | asyncWriteSome v bufs rs => exact ⟨trivial, fun i _ => ⟨by simp [Label.ReadsNothing], trivial⟩⟩
  | asyncReadSome v bufs => exact absurd rfl (hread v bufs)
  | stateChange u state rs =>
    intro i _
    cases state with
    | writable => exact fun x _ => ⟨trivial, by simp [Label.ReadsNothing], trivial⟩
    | connect | eof | destroying => trivial
  | onRead u buf ecs => exact absurd rfl (hrecv u buf ecs)
  | _ => trivial

theorem reading_step {w w' : World} (hw : Sound w) (h : Reading w) {ev : Event} (hen : w.Enabled ev)
    (hs : w.step ev = .ok w') : Reading w' := by
  by_cases hread : ∃ v bufs, ev = .asyncReadSome v bufs
  · obtain ⟨v, bufs, rfl⟩ := hread
    exact reading_asyncReadSome h hs
  · by_cases hrecv : ∃ u buf ecs, ev = .onRead u buf ecs
    · obtain ⟨u, buf, ecs, rfl⟩ := hrecv
      simp only [step, callbackOnRead] at hs
      split at hs
      · cases hs
      · exact reading_onReceive h hs
    · have hkeep : ∀ s s', Reading s → Moves (fun _ l => l.ReadsNothing) s s' → Reading s' := by
        rintro s s' hr ⟨l, hl, hm⟩
        exact reading_move hr hl hm
      have htr := hw.starts (fun _ l hl => by cases l <;> trivial)
        (fun _ l hl => by cases l <;> trivial) hen
        (starts_readsNothing (fun v bufs he => hread ⟨v, bufs, he⟩) fun u buf ecs he => hrecv ⟨u, buf, ecs, he⟩)
      exact (htr.outcome _ hkeep h).1 w' hs

theorem reachable_reading {w : World} (h : Reachable Enabled step {} w) : Reading w := by
  have hboth : Sound w ∧ Reading w :=
    h.invariant (fun w => Sound w ∧ Reading w)
      (fun _ _ _ hw hen hs => ⟨sound_step hw.1 hen hs, reading_step hw.1 hw.2 hen hs⟩)
      ⟨sound_init, fun i hp => absurd rfl hp⟩
  exact hboth.2

end World

end AsioUtp
