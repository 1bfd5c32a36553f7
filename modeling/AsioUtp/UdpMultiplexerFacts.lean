/-
What holds of the `udp_multiplexer`s on a port.

`no_dead_entry`: as long as no `udp_multiplexer` is closed with a receive
pending and a send in flight while something else keeps the multiplexer,
every linked receive entry has its handler and no flush calls an empty one.
The send in flight is what matters: its completion holds the state, so
closing empties the entry's handler but does not destroy the entry
(`dead_entry_called`).
-/
import AsioUtp.UdpMultiplexer
import AsioUtp.MultiplexerFacts

namespace AsioUtp.Port

open Machine Multiplexer

/-! ## The entries and their handlers -/

/-- What of a state the receive loop depends on is the same in `p'`. -/
def SameEntries (p p' : Port) : Prop :=
  ∀ k, (p'.states k).handler = (p.states k).handler ∧ (p'.states k).owned = (p.states k).owned

theorem SameEntries.handlerSet {p p' : Port} (h : SameEntries p p') (e : Entry) :
    p'.handlerSet e = p.handlerSet e := by
  cases e with
  | context => rfl
  | state k => exact (h k).1

/-- A state updated without touching its handler or its owner. -/
theorem sameEntries_setState {p : Port} {k : Nat} {s : State} (h1 : s.handler = (p.states k).handler)
    (h2 : s.owned = (p.states k).owned) : SameEntries p (p.setState k s) := by
  intro j
  by_cases hj : j = k
  · subst hj
    simp [setState, h1, h2]
  · simp [setState, hj]

/-- Every linked entry has its handler, and so has every state a
`udp_multiplexer` owns. -/
structure Wired (p : Port) : Prop where
  mux : p.alive = true → p.multiplexer.Sound
  linked : p.alive = true → ∀ e, p.multiplexer.Linked e → p.handlerSet e = true
  owned : ∀ k, (p.states k).owned = true → (p.states k).handler = true

theorem wired_init : Wired {} where
  mux _ := sound_init
  linked _ e h := by simp [Linked, pending] at h
  owned k h := by simp at h

/-- A change that keeps the handlers and links nothing but entries with one. -/
theorem Wired.change {p p' : Port} (hp : Wired p) (hs : SameEntries p p')
    (halive : p'.alive = true → p.alive = true) (hm : p'.alive = true → p'.multiplexer.Sound)
    (hl : p'.alive = true → ∀ e, p'.multiplexer.Linked e → p.multiplexer.Linked e ∨ p.handlerSet e = true) :
    Wired p' where
  mux := hm
  linked ha e he := by
    rw [hs.handlerSet]
    rcases hl ha e he with h | h
    · exact hp.linked (halive ha) e h
    · exact h
  owned k hk := by
    rw [(hs k).1]
    exact hp.owned k (by rw [← (hs k).2]; exact hk)

theorem release_states (p : Port) (k : Nat) : (p.release k).states = p.states := by
  unfold release
  split <;> rfl

theorem release_alive (p : Port) (k : Nat) : (p.release k).alive = p.alive := by
  unfold release
  split <;> rfl

theorem release_sound {p : Port} {k : Nat} (h : p.multiplexer.Sound) : (p.release k).multiplexer.Sound := by
  unfold release
  split
  · exact h
  · dsimp only
    split
    · exact sound_unlink h
    · exact h

theorem release_linked {p : Port} {k : Nat} (h : p.multiplexer.Sound) {e : Entry}
    (he : (p.release k).multiplexer.Linked e) : p.multiplexer.Linked e := by
  unfold release at he
  split at he
  · exact he
  · dsimp only at he
    split at he
    · exact ((linked_unlink h).1 he).2
    · exact he

/-- The last holder's release takes the entry out of the loop. -/
theorem release_unlinks {p : Port} {k : Nat} (h : p.multiplexer.Sound) (ha : p.alive = true)
    (hheld : ¬ p.Held k) : ¬ (p.release k).multiplexer.Linked (.state k) := by
  simp only [release, hheld, if_false, ha, if_true]
  rw [linked_unlink h]
  exact fun hl => hl.1 rfl

theorem Wired.release {p : Port} (hp : Wired p) (k : Nat) : Wired (p.release k) := by
  refine hp.change (fun j => by rw [release_states]; exact ⟨rfl, rfl⟩) ?_ (fun ha => ?_) fun ha e he => .inl ?_
  · rw [release_alive]
    exact id
  · rw [release_alive] at ha
    exact release_sound (hp.mux ha)
  · rw [release_alive] at ha
    exact release_linked (hp.mux ha) he

/-! ## The steps -/

theorem wired_bind {p : Port} (hp : Wired p) : Wired p.bind := by
  have hset : ∀ k, k ≠ p.opened → p.bind.states k = p.states k := fun k hk => by simp [Port.bind, setState, hk]
  have hnew : p.bind.states p.opened = { handler := true, impl := true, owned := true } := by
    simp [Port.bind, setState]
  refine ⟨hp.mux, fun ha e he => ?_, fun k hk => ?_⟩
  · cases e with
    | context => rfl
    | state k =>
      by_cases hk : k = p.opened
      · subst hk
        simp [handlerSet, hnew]
      · simp only [handlerSet, hset k hk]
        exact hp.linked ha _ he
  · by_cases hk' : k = p.opened
    · subst hk'
      rw [hnew]
    · rw [hset k hk'] at hk ⊢
      exact hp.owned k hk

theorem wired_asyncReceiveFrom {p p' : Port} {k ep : Nat} {buffers : List (List UInt8)} (hp : Wired p)
    (h : p.asyncReceiveFrom k ep buffers = .ok p') : Wired p' := by
  simp only [asyncReceiveFrom] at h
  split at h
  · next hown =>
    simp only [Except.bind_ok_iff, Except.require_ok_iff, Except.pure_ok_iff] at h
    obtain ⟨-, -, m, hm, rfl⟩ := h
    have hl : ¬ p.multiplexer.Linked (.state k) := by
      simp only [registerRecvHandler, Except.bind_ok_iff, Except.require_ok_iff] at hm
      obtain ⟨-, hl, -⟩ := hm
      exact hl
    have hm : p.multiplexer.registerRecvHandler (.state k) = .ok m := hm
    refine hp.change (sameEntries_setState rfl rfl) id (fun ha => sound_register (hp.mux ha) hl hm) fun _ e he => ?_
    rcases (linked_register hl hm).1 he with rfl | he
    · exact .inr (hp.owned k hown)
    · exact .inl he
  · cases h
    exact hp.change (fun _ => ⟨rfl, rfl⟩) id hp.mux fun _ _ he => .inl he

theorem wired_asyncSendTo {p : Port} {k dst : Nat} {buffers : List (List UInt8)} (hp : Wired p) :
    Wired (p.asyncSendTo k buffers dst) := by
  simp only [asyncSendTo]
  split
  · exact hp.change (sameEntries_setState rfl rfl) id hp.mux fun _ _ he => .inl he
  · exact hp.change (fun _ => ⟨rfl, rfl⟩) id hp.mux fun _ _ he => .inl he

theorem wired_onSent {p : Port} {k size : Nat} {ec : ErrorCode} (hp : Wired p) : Wired (p.onSent k ec size) := by
  unfold onSent
  split
  · exact hp
  · exact hp.change (sameEntries_setState rfl rfl) id hp.mux fun _ _ he => .inl he

theorem wired_finishSend {p : Port} {s : Send} {ec : ErrorCode} {size : Nat} (hp : Wired p) :
    Wired (p.finishSend s ec size) := by
  have hp' : Wired { p with inFlight := p.inFlight.erase s } :=
    hp.change (fun _ => ⟨rfl, rfl⟩) id hp.mux fun _ _ he => .inl he
  exact (wired_onSent hp').release _

theorem wired_sendCompleted {p : Port} {s : Send} {ec : ErrorCode} {size : Nat} (hp : Wired p) :
    Wired (p.sendCompleted s ec size) := by
  unfold sendCompleted
  split
  · exact hp.change (fun _ => ⟨rfl, rfl⟩) id hp.mux fun _ _ he => .inl he
  · exact wired_finishSend hp

theorem wired_sendToSignal {p p' : Port} (hp : Wired p) (h : p.sendToSignal = .ok p') : Wired p' := by
  unfold sendToSignal at h
  split at h
  · cases h
    exact hp
  · split at h
    · cases h
    · cases h
      exact hp.change (fun _ => ⟨rfl, rfl⟩) id hp.mux fun _ _ he => .inl he

theorem wired_onSentEnd {p : Port} (hp : Wired p) : Wired p.onSentEnd := by
  unfold onSentEnd
  split
  · exact hp
  · exact wired_finishSend (hp.change (fun _ => ⟨rfl, rfl⟩) id hp.mux fun _ _ he => .inl he)

/-- What `close` does before it lets go of the state. -/
theorem close_of_owned {p : Port} {k : Nat} (hown : (p.states k).owned = true) :
    ∃ q : Port, p.close k = q.release k ∧ q.multiplexer = p.multiplexer ∧ q.opened = p.opened ∧ q.alive = p.alive ∧
      q.inFlight = p.inFlight ∧
      q.posted = ((p.postAborted (p.states k).rxHandler).postAborted (p.states k).txHandler).posted ∧
      q.states = Function.update p.states k
        { p.states k with handler := false, rxHandler := none, txHandler := none, impl := false, owned := false } := by
  simp only [close, hown, if_true]
  refine ⟨_, rfl, ?_, ?_, ?_, ?_, rfl, ?_⟩ <;> cases (p.states k).rxHandler <;> cases (p.states k).txHandler <;> rfl

theorem close_owned {p : Port} {k : Nat} (hp : ∀ j, (p.states j).owned = true → (p.states j).handler = true) (j : Nat)
    (hj : ((p.close k).states j).owned = true) : ((p.close k).states j).handler = true := by
  by_cases hown : (p.states k).owned = true
  · obtain ⟨q, hq, -, -, -, -, -, hst⟩ := close_of_owned hown
    rw [hq, release_states, hst] at hj ⊢
    by_cases hjk : j = k
    · subst hjk
      simp at hj
    · rw [Function.update_of_ne hjk] at hj ⊢
      exact hp j hj
  · rw [show p.close k = p by simp [close, hown]] at hj ⊢
    exact hp j hj

/-- Closing empties the entry's handler, so the entry has to leave the loop
with it: nothing else may hold the state. -/
theorem wired_close {p : Port} {k : Nat} (hp : Wired p)
    (hfree : p.alive = true → (p.states k).owned = true → p.multiplexer.Linked (.state k) →
      ∀ s ∈ p.inFlight, s.state ≠ k) : Wired (p.close k) := by
  by_cases hown : (p.states k).owned = true
  · obtain ⟨q, hq, hmux, -, halive, hfl, -, hst⟩ := close_of_owned hown
    refine ⟨fun ha => ?_, fun ha e he => ?_, close_owned hp.owned⟩
    · rw [hq, release_alive, halive] at ha
      rw [hq]
      exact release_sound (by rw [hmux]; exact hp.mux ha)
    · rw [hq, release_alive, halive] at ha
      rw [hq] at he ⊢
      have hsound : q.multiplexer.Sound := by rw [hmux]; exact hp.mux ha
      have hl : p.multiplexer.Linked e := by
        rw [← hmux]
        exact release_linked hsound he
      cases e with
      | context => rfl
      | state j =>
        by_cases hj : j = k
        · subst hj
          exfalso
          refine release_unlinks hsound (by rw [halive]; exact ha) ?_ he
          rintro (h | h | ⟨t, ht, htk⟩)
          · simp [hst] at h
          · simp [hst] at h
          · rw [hfl] at ht
            exact hfree ha hown hl t ht htk
        · simp only [handlerSet, release_states, hst, Function.update_of_ne hj]
          exact hp.linked ha _ hl
  · rwa [show p.close k = p by simp [close, hown]]

theorem sameEntries_handleRead {p p' : Port} {k size : Nat} {ec : ErrorCode}
    (h : p.handleRead k ec size = .ok p') :
    SameEntries p p' ∧ p'.multiplexer = p.multiplexer ∧ p'.alive = p.alive := by
  simp only [handleRead] at h
  split at h
  · cases h; exact ⟨fun _ => ⟨rfl, rfl⟩, rfl, rfl⟩
  · cases h
  · split at h
    · cases h
    · cases h
      exact ⟨sameEntries_setState rfl rfl, rfl, rfl⟩

theorem wired_flushNext {p p' : Port} (hp : Wired p) (ha : p.alive = true) (hpend : p.multiplexer.pending ≠ [])
    (h : p.flushNext = .ok p') : Wired p' := by
  simp only [flushNext, Except.bind_ok_iff] at h
  obtain ⟨m, hm, h⟩ := h
  obtain ⟨e, rest, hpe⟩ := List.exists_cons_of_ne_nil hpend
  have hhead : p.multiplexer.pending.head? = some e := by simp [hpe]
  have hp' : Wired { p with multiplexer := m } := by
    refine hp.change (fun _ => ⟨rfl, rfl⟩) id (fun _ => sound_next (hp.mux ha) hm) fun _ x hx => .inl ?_
    exact ((linked_next (hp.mux ha) hhead hm).1 hx).2
  split at h
  · obtain ⟨hs, hmux, halive⟩ := sameEntries_handleRead h
    refine hp'.change hs (fun ha => by rwa [halive] at ha) (fun ha => ?_) fun _ x hx => .inl (by rwa [hmux] at hx)
    rw [hmux]
    exact hp'.mux (by rwa [halive] at ha)
  · cases h
    exact hp'

/-- A `udp_multiplexer` closed while its entry is linked has no send in flight, unless the
multiplexer goes with it. -/
def ClosesIdle (p : Port) : Event → Prop
  | .close k => (p.states k).owned = true → p.multiplexer.Linked (.state k) → ∀ s ∈ p.inFlight, s.state ≠ k
  | _ => True

instance (p : Port) : (ev : Event) → Decidable (p.ClosesIdle ev)
  | .close _ => inferInstanceAs (Decidable (_ → _ → ∀ s ∈ p.inFlight, _))
  | .bind | .asyncReceiveFrom _ _ _ | .asyncSendTo _ _ _ | .sent _ _ _ | .sendToSignal | .sentEnd | .closeLast _
  | .setEndpoint _ _ | .register | .unlink | .received _ _ _ | .next | .flushed | .destroy =>
    inferInstanceAs (Decidable True)

theorem wired_step {p p' : Port} {ev : Event} (hp : Wired p) (hen : p.Enabled ev) (hidle : p.ClosesIdle ev)
    (h : p.step ev = .ok p') : Wired p' := by
  cases ev with
  | bind => cases h; exact wired_bind hp
  | asyncReceiveFrom k ep buffers => exact wired_asyncReceiveFrom hp h
  | asyncSendTo k buffers dst => cases h; exact wired_asyncSendTo hp
  | sent s ec size => cases h; exact wired_sendCompleted hp
  | sendToSignal => exact wired_sendToSignal hp h
  | sentEnd => cases h; exact wired_onSentEnd hp
  | close k => cases h; exact wired_close hp fun _ => hidle
  | closeLast k =>
    cases h
    exact ⟨fun ha => by simp [closeLast] at ha, fun ha => by simp [closeLast] at ha, close_owned hp.owned⟩
  | setEndpoint v ep => cases h; exact hp.change (fun _ => ⟨rfl, rfl⟩) id hp.mux fun _ _ he => .inl he
  | register =>
    simp only [step, Except.bind_ok_iff, Except.pure_ok_iff] at h
    obtain ⟨m, hm, rfl⟩ := h
    refine hp.change (fun _ => ⟨rfl, rfl⟩) id (fun ha => sound_register (hp.mux ha) hen.2 hm) fun _ e he => ?_
    rcases (linked_register hen.2 hm).1 he with rfl | he
    · exact .inr rfl
    · exact .inl he
  | unlink =>
    cases h
    refine hp.change (fun _ => ⟨rfl, rfl⟩) id (fun ha => sound_unlink (hp.mux ha)) fun ha e he => .inl ?_
    exact ((linked_unlink (hp.mux ha)).1 he).2
  | received ec ep data =>
    simp only [step, Except.bind_ok_iff, Except.pure_ok_iff] at h
    obtain ⟨-, -, m, hm, rfl⟩ := h
    obtain ⟨hrec, hf⟩ := hen
    refine hp.change (fun _ => ⟨rfl, rfl⟩) id (fun ha => sound_received (hp.mux ha) hrec hf hm) fun ha e he => .inl ?_
    exact (linked_received (hp.mux ha) hrec hf hm).1 he
  | next => exact wired_flushNext hp hen.1 hen.2 h
  | flushed =>
    simp only [step, Except.bind_ok_iff, Except.pure_ok_iff] at h
    obtain ⟨m, hm, rfl⟩ := h
    obtain ⟨-, hf, hpend⟩ := hen
    refine hp.change (fun _ => ⟨rfl, rfl⟩) id (fun ha => sound_flushed (hp.mux ha) hf hm) fun ha e he => .inl ?_
    exact (linked_flushed hpend hm).1 he
  | destroy =>
    cases h
    exact ⟨fun ha => by simp at ha, fun ha => by simp at ha, hp.owned⟩

/-- **No dead receive entry stays registered**, in every run in which no `udp_multiplexer` is
closed with its receive entry linked while a send of its own is in flight and something else keeps
the multiplexer: every linked entry has its handler, the entry of a closed `udp_multiplexer` is not
linked, and no flush finds an entry without handler. -/
theorem no_dead_entry {p : Port}
    (h : Reachable (fun p ev => p.Enabled ev ∧ p.ClosesIdle ev) step {} p) (ha : p.alive = true) :
    (∀ e, p.multiplexer.Linked e → p.handlerSet e = true) ∧
    (∀ k, (p.states k).owned = false → (p.states k).handler = false → ¬ p.multiplexer.Linked (.state k)) ∧
    p.step .next ≠ .error (.assertion .flushHandlers) := by
  have hp : Wired p :=
    h.invariant Wired (fun _ _ _ hs hok hstep => wired_step hs hok.1 hok.2 hstep) wired_init
  refine ⟨hp.linked ha, fun k _ hk hl => ?_, fun hstep => ?_⟩
  · have := hp.linked ha _ hl
    simp [handlerSet, hk] at this
  · have hstep : p.flushNext = .error (.assertion .flushHandlers) := hstep
    simp only [flushNext, Except.bind_error_iff] at hstep
    rcases hstep with hm | ⟨m, -, hread⟩
    · unfold Multiplexer.flushNext at hm
      split at hm
      · next ec size e rest hf =>
        simp only [Except.bind_error_iff, Except.require_error_iff] at hm
        rcases hm with ⟨hno, -⟩ | ⟨_, -, hm⟩
        · exact hno (hp.linked ha e (.inr (by simp [pending, hf])))
        · cases hm
      · cases hm
    · split at hread
      · simp only [handleRead] at hread
        split at hread
        · cases hread
        · cases hread
        · split at hread <;> cases hread
      · cases hread

/-- A receive and a send of one `udp_multiplexer` end in either order, it is closed with neither
pending, and its entry is out of the loop a second one keeps going. -/
theorem no_dead_entry_two :
    ∃ p, Run (fun p ev => p.Enabled ev ∧ p.ClosesIdle ev) step {}
        [.bind, .bind, .setEndpoint 0 (some default), .asyncReceiveFrom 0 0 [[0]], .asyncReceiveFrom 1 0 [[0]],
          .asyncSendTo 0 [[1]] 0, .sent ⟨2, 0, 0⟩ .success 1, .sentEnd, .close 0] p ∧
      p.alive = true ∧ ¬ p.multiplexer.Linked (.state 0) ∧ p.multiplexer.Linked (.state 1) ∧
      p.handlerSet (.state 1) = true := by
  obtain ⟨p, hrun, ha, hclosed, hl⟩ := exists_run (fun p ev => Enabled p ev ∧ ClosesIdle p ev) step {}
    [.bind, .bind, .setEndpoint 0 (some default), .asyncReceiveFrom 0 0 [[0]], .asyncReceiveFrom 1 0 [[0]],
      .asyncSendTo 0 [[1]] 0, .sent ⟨2, 0, 0⟩ .success 1, .sentEnd, .close 0]
    (fun p => p.alive = true ∧ ((p.states 0).owned = false ∧ (p.states 0).handler = false) ∧
      p.multiplexer.Linked (.state 1)) (by decide)
  obtain ⟨hset, hgone, -⟩ := no_dead_entry ⟨_, hrun⟩ ha
  exact ⟨p, hrun, ha, hgone 0 hclosed.1 hclosed.2, hl, hset _ hl⟩

/-- A `udp_multiplexer` is closed with a receive pending and a send in flight: its entry stays in
the loop with no handler, and the next datagram for the port calls it. -/
theorem dead_entry_called :
    ∃ p, Run Enabled step {}
        [.bind, .bind, .setEndpoint 0 (some default), .asyncReceiveFrom 0 0 [[0]], .asyncSendTo 0 [[1]] 0,
          .close 0] p ∧
      p.alive = true ∧ p.multiplexer.Linked (.state 0) ∧ p.handlerSet (.state 0) = false ∧
      p.Enabled (.received .success default [7]) ∧
      ∃ p', p.step (.received .success default [7]) = .ok p' ∧ p'.Enabled .next ∧
        p'.step .next = .error (.assertion .flushHandlers) := by
  refine ⟨_, run_of_exec rfl, rfl, by decide, rfl, by decide, _, rfl, by decide, rfl⟩

end AsioUtp.Port
