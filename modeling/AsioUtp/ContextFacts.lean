/-
A context listens and ticks exactly while it has work (`context_listens`):
the count of outstanding operations, the link of the receive entry and the
ticker agree whenever neither a flush nor a tick is in progress, whatever the
libutp callbacks did to the count in between.
-/
import AsioUtp.Context
import AsioUtp.MultiplexerFacts

namespace AsioUtp

/-! ## The ticker -/

namespace Ticker

/-- `_outstanding` counts the waits, and a running ticker outside its own
callback waits. -/
structure Sound (t : Ticker) (ticking : Bool) : Prop where
  waits : t.waits.length = if t.outstanding then 1 else 0
  waiting : t.running = true → ticking = false → t.outstanding = true

theorem Sound.start {t : Ticker} {b : Bool} (h : Sound t b) : Sound t.start b := by
  have hw := h.waits
  unfold Ticker.start
  split
  · exact h
  · dsimp only
    split
    · next ho => exact ⟨hw, fun _ _ => ho⟩
    · next ho =>
      refine ⟨?_, fun _ _ => rfl⟩
      simp only [asyncWait, List.length_append, List.length_map, List.length_singleton]
      simp [ho] at hw
      simp [hw]

theorem start_running (t : Ticker) : t.start.running = true := by
  unfold start
  split
  · assumption
  · dsimp only
    split <;> rfl

theorem Sound.stop {t : Ticker} {b : Bool} (h : Sound t b) : Sound t.stop b := by
  unfold Ticker.stop
  split
  · exact ⟨by simpa using h.waits, fun hr => by simp at hr⟩
  · exact h

theorem stop_running (t : Ticker) : t.stop.running = false := by
  unfold stop
  split
  · rfl
  · next h => simpa using h

end Ticker

namespace Context

open Machine Multiplexer

/-! ## The invariant -/

/-- The agreement of count, link and ticker. While `on_read` is on the stack
the entry may be unlinked although there is work: `on_read` links it again
when it returns. -/
structure Listens (c : Context) : Prop where
  ticker : c.ticker.Sound c.ticking
  mux : c.alive = true → c.multiplexer.Sound
  utpCtx : c.alive = true → c.utpCtx = true
  running : c.alive = true → (c.ticker.running = true ↔ 0 < c.outstandingOpCount)
  linked : c.alive = true → c.multiplexer.Linked .context → 0 < c.outstandingOpCount
  links : c.alive = true → c.reading = false → 0 < c.outstandingOpCount → c.multiplexer.Linked .context
  reading : c.alive = true → c.reading = true → c.multiplexer.flushing ≠ none

theorem listens_init : Listens {} where
  ticker := ⟨rfl, fun h => by simp at h⟩
  mux _ := sound_init
  utpCtx _ := rfl
  running _ := by simp
  linked _ h := by simp [Linked, pending] at h
  links _ _ h := by simp at h
  reading _ h := by simp at h

/-! ## Starting and stopping -/

/-- What `startReceiving` does, when the multiplexer is alive: the ticker is
started and the entry linked. -/
theorem startReceiving_spec (c : Context) :
    ∃ t m, c.startReceiving = .ok { c with ticker := t, multiplexer := m } ∧
      (c.alive = true → t = c.ticker.start ∧ (c.multiplexer.Sound → m.Sound) ∧
        (∀ x, m.Linked x ↔ x = .context ∨ c.multiplexer.Linked x) ∧ m.flushing = c.multiplexer.flushing) ∧
      (c.alive = false → t = c.ticker ∧ m = c.multiplexer) := by
  unfold startReceiving
  split
  · next ha =>
    dsimp only
    split
    · next hl =>
      refine ⟨_, _, rfl, fun _ => ⟨rfl, id, fun x => ?_, rfl⟩, fun h => by simp [ha] at h⟩
      exact ⟨.inr, fun h => h.elim (fun hx => hx ▸ hl) id⟩
    · next hl =>
      have hreg := registerRecvHandler_eq hl
      refine ⟨c.ticker.start, _, by rw [hreg]; rfl, fun _ => ⟨rfl, ?_, ?_, ?_⟩, fun h => by simp [ha] at h⟩
      · exact fun hs => sound_register hs hl hreg
      · exact fun x => linked_register hl hreg
      · exact flushing_register hl hreg
  · next ha => exact ⟨_, _, rfl, fun h => absurd h ha, fun _ => ⟨rfl, rfl⟩⟩

/-- Counting an operation never faults, and changes the count, the ticker and the receive loop. -/
theorem increment_spec (c : Context) :
    ∃ t m, c.incrementOutstandingOps =
      .ok { c with outstandingOpCount := c.outstandingOpCount + 1, ticker := t, multiplexer := m } := by
  unfold incrementOutstandingOps
  dsimp only
  split
  · obtain ⟨t, m, heq, -⟩ := startReceiving_spec { c with outstandingOpCount := c.outstandingOpCount + 1 }
    exact ⟨t, m, heq⟩
  · exact ⟨_, _, rfl⟩

theorem decrement_spec {c : Context} (h : 0 < c.outstandingOpCount) :
    ∃ t m, c.decrementOutstandingOps =
      { c with outstandingOpCount := c.outstandingOpCount - 1, ticker := t, multiplexer := m } := by
  have hne : c.outstandingOpCount ≠ 0 := by omega
  unfold decrementOutstandingOps
  simp only [hne, if_false]
  split
  · exact ⟨_, _, rfl⟩
  · exact ⟨_, _, rfl⟩

/-- Neither counting changes who is there. -/
theorem decrement_alive (c : Context) :
    c.decrementOutstandingOps.alive = c.alive ∧ c.decrementOutstandingOps.utpCtx = c.utpCtx := by
  unfold decrementOutstandingOps
  generalize (if c.outstandingOpCount = 0 then sizeBound - 1 else c.outstandingOpCount - 1) = n
  dsimp only
  split <;> exact ⟨rfl, rfl⟩

theorem increment_alive {c c' : Context} (h : c.incrementOutstandingOps = .ok c') :
    c'.alive = c.alive ∧ c'.utpCtx = c.utpCtx ∧ c'.outstandingOpCount = c.outstandingOpCount + 1 := by
  obtain ⟨t, m, heq⟩ := increment_spec c
  rw [heq] at h
  cases h
  exact ⟨rfl, rfl, rfl⟩

/-- `startReceiving` restores the agreement where there is work. -/
theorem listens_startReceiving {c c' : Context} (ht : c.ticker.Sound c.ticking)
    (hm : c.alive = true → c.multiplexer.Sound) (hu : c.alive = true → c.utpCtx = true)
    (hr : c.alive = true → c.reading = true → c.multiplexer.flushing ≠ none)
    (hpos : 0 < c.outstandingOpCount) (h : c.startReceiving = .ok c') : Listens c' := by
  obtain ⟨t, m, heq, halive, hdead⟩ := startReceiving_spec c
  rw [heq] at h
  cases h
  by_cases ha : c.alive = true
  · obtain ⟨rfl, hsound, hlink, hflush⟩ := halive ha
    refine ⟨ht.start, fun _ => hsound (hm ha), hu, fun _ => ?_, fun _ _ => hpos, fun _ _ _ => ?_, fun _ hread => ?_⟩
    · exact ⟨fun _ => hpos, fun _ => Ticker.start_running _⟩
    · exact (hlink _).2 (.inl rfl)
    · rw [hflush]
      exact hr ha hread
  · obtain ⟨rfl, rfl⟩ := hdead (by simpa using ha)
    exact ⟨ht, fun h => absurd h ha, fun h => absurd h ha, fun h => absurd h ha, fun h => absurd h ha,
      fun h => absurd h ha, fun h => absurd h ha⟩

/-- `stopReceiving` restores it where there is none. -/
theorem listens_stopReceiving {c : Context} (ht : c.ticker.Sound c.ticking)
    (hm : c.alive = true → c.multiplexer.Sound) (hu : c.alive = true → c.utpCtx = true)
    (hr : c.alive = true → c.reading = true → c.multiplexer.flushing ≠ none)
    (hzero : c.alive = true → c.outstandingOpCount = 0) : Listens c.stopReceiving := by
  have hmux : c.alive = true → c.stopReceiving.multiplexer = c.multiplexer.unlink .context := by
    intro ha
    simp [stopReceiving, ha]
  refine ⟨ht.stop, fun ha => ?_, hu, fun ha => ?_, fun ha hl => ?_, fun ha _ hpos => ?_, fun ha hread => ?_⟩
  · rw [hmux ha]
    exact sound_unlink (hm ha)
  · have hz : c.stopReceiving.outstandingOpCount = 0 := hzero ha
    have hrun : c.stopReceiving.ticker.running = false := Ticker.stop_running _
    simp [hz, hrun]
  · rw [hmux ha, linked_unlink (hm ha)] at hl
    exact absurd rfl hl.1
  · exact absurd (hzero ha) (Nat.pos_iff_ne_zero.1 hpos)
  · rw [hmux ha, ne_eq, flushing_unlink]
    exact hr ha hread

/-! ## The steps -/

theorem listens_increment {c c' : Context} (hc : Listens c) (h : c.incrementOutstandingOps = .ok c') :
    Listens c' := by
  unfold incrementOutstandingOps at h
  dsimp only at h
  split at h
  · exact listens_startReceiving (c := { c with outstandingOpCount := c.outstandingOpCount + 1 })
      hc.ticker hc.mux hc.utpCtx hc.reading (Nat.succ_pos _) h
  · next hne =>
    cases h
    have hpos : 0 < c.outstandingOpCount := Nat.pos_of_ne_zero hne
    refine ⟨hc.ticker, hc.mux, hc.utpCtx, fun ha => ?_, fun _ _ => Nat.succ_pos _, fun ha hr _ => ?_, hc.reading⟩
    · exact ⟨fun _ => Nat.succ_pos _, fun _ => (hc.running ha).2 hpos⟩
    · exact hc.links ha hr hpos

theorem listens_decrement {c : Context} (hc : Listens c) (hpos : 0 < c.outstandingOpCount) :
    Listens c.decrementOutstandingOps := by
  have hne : c.outstandingOpCount ≠ 0 := by omega
  unfold decrementOutstandingOps
  simp only [hne, if_false]
  split
  · next hz => exact listens_stopReceiving hc.ticker hc.mux hc.utpCtx hc.reading fun _ => hz
  · next hz =>
    have hpos' : 0 < c.outstandingOpCount - 1 := Nat.pos_of_ne_zero hz
    refine ⟨hc.ticker, hc.mux, hc.utpCtx, fun ha => ?_, fun _ _ => hpos', fun ha hr _ => ?_, hc.reading⟩
    · exact ⟨fun _ => hpos', fun _ => (hc.running ha).2 hpos⟩
    · exact hc.links ha hr hpos

/-- A change of the multiplexer that keeps the context's entry where it is. -/
theorem listens_mux {c : Context} {m : Multiplexer Entry} (hc : Listens c)
    (hm : c.alive = true → m.Sound)
    (hl : c.alive = true → (m.Linked .context ↔ c.multiplexer.Linked .context))
    (hf : c.alive = true → c.reading = true → m.flushing ≠ none) :
    Listens { c with multiplexer := m } where
  ticker := hc.ticker
  mux := hm
  utpCtx := hc.utpCtx
  running := hc.running
  linked ha hm' := hc.linked ha ((hl ha).1 hm')
  links ha hr hpos := (hl ha).2 (hc.links ha hr hpos)
  reading := hf

theorem listens_register {c c' : Context} {k : Nat} (hc : Listens c) (hl : ¬ c.multiplexer.Linked (.state k))
    (h : c.step (.register k) = .ok c') : Listens c' := by
  simp only [step, Except.bind_ok_iff, Except.pure_ok_iff] at h
  obtain ⟨m, hm, rfl⟩ := h
  refine listens_mux hc (fun ha => sound_register (hc.mux ha) hl hm) (fun _ => ?_) fun ha hr => ?_
  · rw [linked_register hl hm]
    simp
  · rw [flushing_register hl hm]
    exact hc.reading ha hr

theorem listens_received {c c' : Context} {ec : ErrorCode} {ep : Endpoint} {data : List UInt8} (hc : Listens c)
    (hen : c.Enabled (.received ec ep data)) (h : c.step (.received ec ep data) = .ok c') : Listens c' := by
  simp only [step, Except.bind_ok_iff, Except.pure_ok_iff] at h
  obtain ⟨m, hm, rfl⟩ := h
  obtain ⟨ha, hrec, hf, -⟩ := hen
  refine listens_mux hc (fun ha => sound_received (hc.mux ha) hrec hf hm) (fun _ => ?_) fun ha hr => ?_
  · exact linked_received (hc.mux ha) hrec hf hm
  · exact absurd hf (hc.reading ha hr)

/-- The flush's next entry: for the context's own, `on_read` starts and the
entry is unlinked; for another's, nothing of the context changes. -/
theorem listens_next {c c' : Context} (hc : Listens c) (hen : c.Enabled .next)
    (h : c.step .next = .ok c') : Listens c' := by
  obtain ⟨ha, hp, hr⟩ := hen
  obtain ⟨e, rest, hpe⟩ := List.exists_cons_of_ne_nil hp
  have hhead : c.multiplexer.pending.head? = some e := by simp [hpe]
  have hflush : c.multiplexer.flushing ≠ none := fun hf => hp (pending_none hf)
  simp only [step, flushNext, Except.bind_ok_iff, Except.pure_ok_iff] at h
  obtain ⟨m, hm, rfl⟩ := h
  have hlink := fun x => linked_next (x := x) (hc.mux ha) hhead hm
  have hsound := sound_next (hc.mux ha) hm
  have hf : m.flushing ≠ none := fun hf => hflush ((flushing_next hm).1 hf)
  rw [hhead]
  by_cases he : e = .context
  · subst he
    rw [if_pos rfl, onRead, if_pos ha]
    refine ⟨hc.ticker, fun _ => hsound, hc.utpCtx, hc.running, fun _ hl => ?_, fun _ hr => by simp at hr, fun _ _ => hf⟩
    exact absurd rfl ((hlink _).1 hl).1
  · have hne : ¬ some e = some Entry.context := by simpa using he
    simp only [hne, if_false]
    refine listens_mux hc (fun _ => hsound) (fun _ => ?_) fun _ _ => hf
    rw [hlink]
    exact ⟨fun h => h.2, fun h => ⟨fun h' => he h'.symm, h⟩⟩

theorem listens_readEnd {c c' : Context} (hc : Listens c) (h : c.step .readEnd = .ok c') : Listens c' := by
  simp only [step, onReadEnd] at h
  split at h
  · next hz =>
    cases h
    refine ⟨hc.ticker, hc.mux, hc.utpCtx, hc.running, hc.linked, fun _ _ hpos => ?_, fun _ hr => by simp at hr⟩
    exact absurd hz (Nat.pos_iff_ne_zero.1 hpos)
  · next hne =>
    refine listens_startReceiving (c := { c with reading := false }) hc.ticker hc.mux hc.utpCtx ?_
      (Nat.pos_of_ne_zero hne) h
    intro _ hr
    simp at hr

theorem listens_flushed {c c' : Context} (hc : Listens c) (hen : c.Enabled .flushed)
    (h : c.step .flushed = .ok c') : Listens c' := by
  simp only [step, Except.bind_ok_iff, Except.pure_ok_iff] at h
  obtain ⟨m, hm, rfl⟩ := h
  obtain ⟨-, hf, hp, hr⟩ := hen
  refine listens_mux hc (fun ha => sound_flushed (hc.mux ha) hf hm) (fun _ => linked_flushed hp hm) fun _ hr' => ?_
  rw [hr] at hr'
  cases hr'

/-- A wait that completes leaves the ticker without one, and calls back only
if the ticker runs and the multiplexer lives. -/
theorem onWait_spec {c : Context} (hc : Listens c) (hw : c.ticker.waits ≠ []) :
    c.ticker.outstanding = true ∧ c.ticker.waits.length = 1 ∧
      (c.alive = true → c.ticker.running = true →
        c.onWait = .ok { c with
          ticker := { c.ticker with outstanding := false, waits := [] }
          ticking := true }) ∧
      (¬ (c.alive = true ∧ c.ticker.running = true) →
        c.onWait = .ok { c with ticker := { running := false, outstanding := false, waits := [] } }) := by
  have hlen := hc.ticker.waits
  have hout : c.ticker.outstanding = true := by
    by_contra hno
    simp [hno] at hlen
    exact hw hlen
  have htail : c.ticker.waits.tail = [] := by
    simp [hout] at hlen
    obtain ⟨b, hb⟩ := List.length_eq_one_iff.1 hlen
    simp [hb]
  refine ⟨hout, by simpa [hout] using hlen, fun ha hr => ?_, fun hn => ?_⟩
  · have hu := hc.utpCtx ha
    simp only [onWait, ha, hr, hu, Except.require, htail, if_true, Except.ok_bind]
    rfl
  · cases ha : c.alive <;> cases hr : c.ticker.running <;> simp_all [onWait]

theorem listens_waited {c c' : Context} (hc : Listens c) (hen : c.Enabled .waited)
    (h : c.step .waited = .ok c') : Listens c' := by
  obtain ⟨hw, hflush, htick⟩ := hen
  obtain ⟨-, -, hcall, hquiet⟩ := onWait_spec hc hw
  have h : c.onWait = .ok c' := h
  by_cases hrun : c.alive = true ∧ c.ticker.running = true
  · rw [hcall hrun.1 hrun.2] at h
    cases h
    exact ⟨⟨rfl, fun _ h => by simp at h⟩, hc.mux, hc.utpCtx, hc.running, hc.linked, hc.links, hc.reading⟩
  · rw [hquiet hrun] at h
    cases h
    refine ⟨⟨rfl, fun h => by simp at h⟩, hc.mux, hc.utpCtx, fun ha => ?_, hc.linked, hc.links, hc.reading⟩
    have hzero := (hc.running ha).not.1 fun hr => hrun ⟨ha, hr⟩
    simp [hzero]

theorem listens_tickEnd {c : Context} (hc : Listens c) : Listens c.onTickEnd := by
  unfold onTickEnd
  dsimp only
  split
  · next hr =>
    have ht : ({ c.ticker with running := false } : Ticker).Sound false := ⟨hc.ticker.waits, fun h => by simp at h⟩
    refine ⟨ht.start, hc.mux, hc.utpCtx, fun ha => ?_, hc.linked, hc.links, hc.reading⟩
    exact ⟨fun _ => (hc.running ha).1 hr, fun _ => Ticker.start_running _⟩
  · next hr =>
    exact ⟨⟨hc.ticker.waits, fun h => absurd h hr⟩, hc.mux, hc.utpCtx, hc.running, hc.linked, hc.links, hc.reading⟩

/-- The agreement once the multiplexer is gone is the ticker's alone. -/
theorem listens_dead {c : Context} (ht : c.ticker.Sound c.ticking) (ha : c.alive = false) : Listens c :=
  ⟨ht, by simp [ha], by simp [ha], by simp [ha], by simp [ha], by simp [ha], by simp [ha]⟩

theorem listens_step {c c' : Context} {ev : Event} (hc : Listens c) (hen : c.Enabled ev)
    (h : c.step ev = .ok c') : Listens c' := by
  cases ev with
  | increment => exact listens_increment hc h
  | decrement => cases h; exact listens_decrement hc hen
  | register k => exact listens_register hc hen.2 h
  | unlink k =>
    cases h
    refine listens_mux hc (fun ha => sound_unlink (hc.mux ha)) (fun ha => ?_) fun ha hr => ?_
    · rw [linked_unlink (hc.mux ha)]
      simp
    · rw [ne_eq, flushing_unlink]
      exact hc.reading ha hr
  | received ec ep data => exact listens_received hc hen h
  | next => exact listens_next hc hen h
  | readEnd => exact listens_readEnd hc h
  | flushed => exact listens_flushed hc hen h
  | waited => exact listens_waited hc hen h
  | tickEnd => cases h; exact listens_tickEnd hc
  | destroy => cases h; exact listens_dead hc.ticker rfl
  | destroyed =>
    cases h
    exact listens_dead hc.ticker.stop hen.1

/-- No assertion of the context, its ticker or its multiplexer fails. -/
theorem step_ok {c : Context} {ev : Event} (hc : Listens c) (hen : c.Enabled ev) :
    ∃ c', c.step ev = .ok c' := by
  cases ev with
  | increment =>
    simp only [step, incrementOutstandingOps]
    split
    · obtain ⟨t, m, heq, -⟩ := startReceiving_spec { c with outstandingOpCount := c.outstandingOpCount + 1 }
      exact ⟨_, heq⟩
    · exact ⟨_, rfl⟩
  | decrement => exact ⟨_, rfl⟩
  | register k =>
    simp only [step, registerRecvHandler_eq hen.2]
    exact ⟨_, rfl⟩
  | unlink k => exact ⟨_, rfl⟩
  | received ec ep data =>
    have hen' : c.multiplexer.Enabled (.received ec ep data) := ⟨hen.2.1, hen.2.2.1⟩
    obtain ⟨m, hm⟩ := Multiplexer.step_ok (hc.mux hen.1) hen'
    have hm : (c.multiplexer.receiveCompleted ep data).onReceive ec data.length = .ok m := hm
    simp only [step, hm]
    exact ⟨_, rfl⟩
  | next =>
    have hen' : c.multiplexer.Enabled .next := hen.2.1
    obtain ⟨m, hm⟩ := Multiplexer.step_ok (hc.mux hen.1) hen'
    have hm : c.multiplexer.flushNext (fun _ => true) = .ok m := hm
    simp only [step, flushNext, hm]
    exact ⟨_, rfl⟩
  | readEnd =>
    simp only [step, onReadEnd]
    split
    · exact ⟨_, rfl⟩
    · obtain ⟨t, m, heq, -⟩ := startReceiving_spec { c with reading := false }
      exact ⟨_, heq⟩
  | flushed =>
    simp only [step, flushed, receiveAgain_eq]
    exact ⟨_, rfl⟩
  | waited =>
    obtain ⟨-, -, hcall, hquiet⟩ := onWait_spec hc hen.1
    by_cases hrun : c.alive = true ∧ c.ticker.running = true
    · exact ⟨_, hcall hrun.1 hrun.2⟩
    · exact ⟨_, hquiet hrun⟩
  | tickEnd => exact ⟨_, rfl⟩
  | destroy => exact ⟨_, rfl⟩
  | destroyed => exact ⟨_, rfl⟩

/-- What the receive loop and the ticker leave alone. -/
theorem step_loop {c c' : Context} {ev : Event} (h : c.step ev = .ok c') (hinc : ev ≠ .increment)
    (hdec : ev ≠ .decrement) (hd : ev ≠ .destroy) (hd' : ev ≠ .destroyed) :
    c'.alive = c.alive ∧ c'.utpCtx = c.utpCtx ∧ c'.outstandingOpCount = c.outstandingOpCount := by
  cases ev with
  | increment => exact absurd rfl hinc
  | decrement => exact absurd rfl hdec
  | destroy => exact absurd rfl hd
  | destroyed => exact absurd rfl hd'
  | unlink k => cases h; exact ⟨rfl, rfl, rfl⟩
  | register _ | received _ _ _ | flushed =>
    simp only [step, Except.bind_ok_iff, Except.pure_ok_iff] at h
    obtain ⟨m, -, rfl⟩ := h
    exact ⟨rfl, rfl, rfl⟩
  | next =>
    simp only [step, flushNext, Except.bind_ok_iff, Except.pure_ok_iff] at h
    obtain ⟨m, -, rfl⟩ := h
    split
    · unfold onRead
      split <;> exact ⟨rfl, rfl, rfl⟩
    · exact ⟨rfl, rfl, rfl⟩
  | readEnd =>
    simp only [step, onReadEnd] at h
    split at h
    · cases h; exact ⟨rfl, rfl, rfl⟩
    · obtain ⟨t, m, heq, -⟩ := startReceiving_spec { c with reading := false }
      rw [heq] at h
      cases h
      exact ⟨rfl, rfl, rfl⟩
  | waited =>
    simp only [step, onWait] at h
    generalize (if c.alive = true then _ else _ : Ticker) = t at h
    split at h
    · simp only [Except.bind_ok_iff, Except.pure_ok_iff] at h
      obtain ⟨-, -, rfl⟩ := h
      exact ⟨rfl, rfl, rfl⟩
    · cases h; exact ⟨rfl, rfl, rfl⟩
  | tickEnd =>
    cases h
    unfold onTickEnd
    dsimp only
    split <;> exact ⟨rfl, rfl, rfl⟩

/-- The faults of a context are those of its own assertions and of its receive entry. -/
theorem step_fault {c : Context} {ev : Event} {f : Fault} (h : c.step ev = .error f) :
    f = .hookLinked ∨ ∃ s, f = .assertion s ∧ s ∈ [Site.startReceiving, .onReceive, .flushHandlers, .onTick] := by
  cases ev with
  | increment =>
    obtain ⟨t, m, heq⟩ := increment_spec c
    simp [step, heq] at h
  | register k =>
    simp only [step] at h
    by_cases hl : c.multiplexer.Linked (.state k)
    · simp only [registerRecvHandler, Except.require, hl, not_true_eq_false, if_false, Except.error_bind] at h
      cases h
      exact .inl rfl
    · rw [registerRecvHandler_eq hl] at h
      cases h
  | received ec ep data =>
    simp only [step, onReceive, Except.bind_error_iff, Except.require_error_iff, Except.require_ok_iff] at h
    rcases h with (⟨-, rfl⟩ | ⟨-, -, h⟩) | ⟨m, -, h⟩
    · exact .inr ⟨_, rfl, by simp⟩
    · split at h
      · rw [receiveAgain_eq] at h
        cases h
      · cases h
    · cases h
  | next =>
    simp only [step, flushNext, Except.bind_error_iff] at h
    rcases h with h | ⟨m, -, h⟩
    · unfold Multiplexer.flushNext at h
      split at h
      · simp [Except.require] at h
      · cases h
    · cases h
  | readEnd =>
    simp only [step, onReadEnd] at h
    split at h
    · cases h
    · obtain ⟨t, m, heq, -⟩ := startReceiving_spec { c with reading := false }
      rw [heq] at h
      cases h
  | flushed =>
    simp only [step, flushed, receiveAgain_eq] at h
    cases h
  | waited =>
    simp only [step, onWait] at h
    generalize (if c.alive = true then _ else _ : Ticker) = t at h
    split at h
    · simp only [Except.bind_error_iff, Except.require_error_iff] at h
      rcases h with ⟨-, rfl⟩ | ⟨-, -, h⟩
      · exact .inr ⟨_, rfl, by simp⟩
      · cases h
    · cases h
  | decrement | unlink _ | tickEnd | destroy | destroyed => cases h

theorem reachable_listens {c : Context} (h : Reachable Enabled step {} c) : Listens c :=
  h.invariant Listens (fun _ _ _ hs hen hstep => listens_step hs hen hstep) listens_init

theorem count_step {c c' : Context} {ev : Event} (hen : c.Enabled ev) (h : c.step ev = .ok c') :
    c'.outstandingOpCount ≤ c.outstandingOpCount + [ev].count .increment := by
  cases ev with
  | increment => exact (increment_alive h).2.2.le
  | decrement =>
    obtain ⟨t, m, heq⟩ := decrement_spec hen
    cases h
    rw [heq]
    exact Nat.le_add_right_of_le (Nat.sub_le _ _)
  | destroy | destroyed =>
    cases h
    exact Nat.le_add_right _ _
  | _ => exact (step_loop h (by simp) (by simp) (by simp) (by simp)).2.2.le.trans (Nat.le_add_right _ _)

/-- **The count does not wrap** while fewer operations have been started than a `size_t` has values: as a
`size_t` it is then what it is here. -/
theorem run_count_mod {c : Context} {evs : List Event} (h : Run Enabled step {} evs c)
    (hlt : evs.count .increment < sizeBound) : c.outstandingOpCount % sizeBound = c.outstandingOpCount := by
  have hle : c.outstandingOpCount ≤ evs.count .increment := by
    refine h.induction_snoc (fun evs c => c.outstandingOpCount ≤ evs.count .increment) le_rfl ?_
    intro evs c ev c' _ hc hen hs
    have := count_step hen hs
    rw [List.count_append]
    omega
  exact Nat.mod_eq_of_lt (hle.trans_lt hlt)

/-- **A context listens and ticks exactly while it has work.** In every run, with the
multiplexer alive and neither a flush nor a tick in progress, there are outstanding operations
just when the receive entry is registered and just when the ticker runs. A running ticker
outside its callback has one wait outstanding, and there are never two. A wait that completes
calls back only with the ticker running and the libutp context there, and nothing asserts. -/
theorem context_listens {c : Context} (h : Reachable Enabled step {} c) :
    (c.alive = true → c.multiplexer.flushing = none → c.ticking = false →
      (0 < c.outstandingOpCount ↔ .context ∈ c.multiplexer.recvHandlers) ∧
      (0 < c.outstandingOpCount ↔ c.ticker.running = true)) ∧
    (c.ticking = false → c.ticker.running = true → c.ticker.waits.length = 1) ∧
    c.ticker.waits.length ≤ 1 ∧
    (∀ c', c.Enabled .waited → c.step .waited = .ok c' → c'.ticking = true →
      c.ticker.running = true ∧ c'.ticker.running = true ∧ c'.utpCtx = true) ∧
    (∀ ev, c.Enabled ev → ∃ c', c.step ev = .ok c') := by
  have hc := reachable_listens h
  have hlen := hc.ticker.waits
  refine ⟨fun ha hf _ => ?_, fun ht hr => ?_, ?_, fun c' hen hstep htick => ?_, fun ev hen => step_ok hc hen⟩
  · have hr : c.reading = false := by
      by_contra hr
      exact hc.reading ha (by simpa using hr) hf
    have hlink : c.multiplexer.Linked .context ↔ .context ∈ c.multiplexer.recvHandlers := by
      simp [Linked, pending, hf]
    rw [← hlink]
    exact ⟨⟨hc.links ha hr, hc.linked ha⟩, (hc.running ha).symm⟩
  · rw [hlen, hc.ticker.waiting hr ht]
    rfl
  · rw [hlen]
    split <;> omega
  · obtain ⟨-, -, hcall, hquiet⟩ := onWait_spec hc hen.1
    have hstep : c.onWait = .ok c' := hstep
    by_cases hrun : c.alive = true ∧ c.ticker.running = true
    · rw [hcall hrun.1 hrun.2] at hstep
      cases hstep
      exact ⟨hrun.2, hrun.2, hc.utpCtx hrun.1⟩
    · rw [hquiet hrun] at hstep
      cases hstep
      rw [hen.2.2] at htick
      cases htick

/-- One operation; a datagram arrives and libutp ends the operation and starts another while
`on_read` runs; a tick does the same. The context still listens and ticks. -/
theorem context_listens_restarted :
    ∃ c, Reachable Enabled step {} c ∧ c.outstandingOpCount = 1 ∧
      .context ∈ c.multiplexer.recvHandlers ∧ c.ticker.running = true ∧ c.ticker.waits.length = 1 := by
  have hrun : Reachable Enabled step {}
      { outstandingOpCount := 1
        ticker := { running := true, outstanding := true, waits := [false] }
        multiplexer := { recvHandlers := [.context], isReceiving := true,
                         udpSocket := { receives := [false] }, rxBuffer := [7] } } :=
    ⟨[.increment, .received .success default [7], .next, .decrement, .increment, .readEnd, .flushed,
        .waited, .increment, .decrement, .tickEnd],
      .cons (by decide) rfl <| .cons (by decide) rfl <| .cons (by decide) rfl <| .cons (by decide) rfl <|
      .cons (by decide) rfl <| .cons (by decide) rfl <| .cons (by decide) rfl <| .cons (by decide) rfl <|
      .cons (by decide) rfl <| .cons (by decide) rfl <| .cons (by decide) rfl .nil⟩
  obtain ⟨hagree, hwait, -⟩ := context_listens hrun
  obtain ⟨hlink, hrunning⟩ := hagree rfl rfl rfl
  exact ⟨_, hrun, rfl, hlink.1 Nat.one_pos, hrunning.1 Nat.one_pos, hwait rfl rfl⟩

end Context

end AsioUtp
