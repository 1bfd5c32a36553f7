/-
The life of a `udp_multiplexer::state`, as its port sees it.

A state is made with its handler bound and its `impl` set, and `close` is
what takes both from it and posts what it has pending. Everything else a port
does leaves the flags of every state alone (`Follows`), and as long as no send
is started over another it also leaves every pending call pending or posts it
(`Keeps`).
-/
import AsioUtp.Hub
import AsioUtp.UdpMultiplexerFacts

namespace AsioUtp

/-- The calls whose handlers a state holds. -/
def State.pending (s : State) : List Nat := s.rxHandler.toList ++ s.txHandler.toList

/-- Closed: no `impl`, no `recv_entry.handler` and no call pending. -/
structure State.Closed (s : State) : Prop where
  impl : s.impl = false
  handler : s.handler = false
  pending : s.pending = []

namespace Port

open Machine

/-- Has the handler of the call been posted? -/
def HasPosted (p : Port) (call : Nat) : Prop := ∃ x ∈ p.posted, x.call = call

/-- From `p` to `p'` no state is made, closed or given another owner, and
only states that have an owner get calls. -/
structure Follows (p p' : Port) : Prop where
  opened : p'.opened = p.opened
  alive : p'.alive = p.alive
  posted : p.posted ⊆ p'.posted
  owned : ∀ k, (p'.states k).owned = (p.states k).owned
  impl : ∀ k, (p'.states k).impl = (p.states k).impl
  handler : ∀ k, (p'.states k).handler = (p.states k).handler
  idle : ∀ k, (p.states k).owned = false → (p'.states k).pending ⊆ (p.states k).pending

/-- Every call pending in `p` still is, or its handler has been posted. -/
def Keeps (p p' : Port) (k : Nat) : Prop :=
  ∀ call ∈ (p.states k).pending, call ∈ (p'.states k).pending ∨ p'.HasPosted call

theorem HasPosted.mono {p p' : Port} {call : Nat} (h : p.HasPosted call) (hp : p.posted ⊆ p'.posted) :
    p'.HasPosted call := by
  obtain ⟨x, hx, hc⟩ := h
  exact ⟨x, hp hx, hc⟩

theorem hasPosted_post {p : Port} {call size : Nat} {ec : ErrorCode} : (p.post call ec size).HasPosted call :=
  ⟨⟨call, ec, size⟩, by simp [post], rfl⟩

theorem Follows.trans {p p' p'' : Port} (h : Follows p p') (h' : Follows p' p'') : Follows p p'' where
  opened := h'.opened.trans h.opened
  alive := h'.alive.trans h.alive
  posted := List.Subset.trans h.posted h'.posted
  owned k := (h'.owned k).trans (h.owned k)
  impl k := (h'.impl k).trans (h.impl k)
  handler k := (h'.handler k).trans (h.handler k)
  idle k hk := List.Subset.trans (h'.idle k (by rw [h.owned, hk])) (h.idle k hk)

theorem Keeps.trans {p p' p'' : Port} {k : Nat} (h : Keeps p p' k) (h' : Keeps p' p'' k)
    (hp : p'.posted ⊆ p''.posted) : Keeps p p'' k := by
  intro call hc
  rcases h call hc with hc | hc
  · exact h' call hc
  · exact .inr (hc.mono hp)

/-- A change that leaves every state as it is. -/
theorem follows_same {p p' : Port} (hs : p'.states = p.states) (ho : p'.opened = p.opened)
    (ha : p'.alive = p.alive) (hp : p.posted ⊆ p'.posted) : Follows p p' := by
  refine ⟨ho, ha, hp, ?_, ?_, ?_, ?_⟩ <;> intro k <;> simp [hs]

theorem keeps_same {p p' : Port} (hs : p'.states = p.states) (k : Nat) : Keeps p p' k := by
  intro call hc
  rw [hs]
  exact .inl hc

/-- One state is changed, its flags apart. -/
theorem follows_update {p p' : Port} {k : Nat} {s : State} (hs : p'.states = Function.update p.states k s)
    (hopened : p'.opened = p.opened) (ha : p'.alive = p.alive) (hp : p.posted ⊆ p'.posted)
    (ho : s.owned = (p.states k).owned) (hi : s.impl = (p.states k).impl) (hh : s.handler = (p.states k).handler)
    (hidle : (p.states k).owned = false → s.pending ⊆ (p.states k).pending) : Follows p p' := by
  refine ⟨hopened, ha, hp, ?_, ?_, ?_, ?_⟩ <;> intro j <;> rw [hs] <;> by_cases hj : j = k
  all_goals first
    | (subst hj; simpa using by assumption)
    | simp [hj]

/-- What the changed state does not hold any more has been posted. -/
theorem keeps_update {p p' : Port} {k : Nat} {s : State} (hs : p'.states = Function.update p.states k s)
    (h : ∀ call ∈ (p.states k).pending, call ∈ s.pending ∨ p'.HasPosted call) (j : Nat) : Keeps p p' j := by
  intro call hc
  rw [hs]
  by_cases hj : j = k
  · subst hj
    simpa using h call hc
  · exact .inl (by simpa [hj] using hc)

/-! ## The functions -/

theorem release_follows (p : Port) (k : Nat) : Follows p (p.release k) := by
  unfold release
  split
  · exact follows_same rfl rfl rfl (List.Subset.refl _)
  · exact follows_same rfl rfl rfl (List.Subset.refl _)

/-- Started, the receive is pending on its state. -/
theorem asyncReceiveFrom_follows {p p' : Port} {k ep : Nat} {buffers : List (List UInt8)}
    (h : p.asyncReceiveFrom k ep buffers = .ok p') : Follows p p' ∧ (∀ j, Keeps p p' j) ∧
      ((p.states k).owned = true → p.calls ∈ (p'.states k).pending) := by
  simp only [asyncReceiveFrom] at h
  split at h
  · next hown =>
    simp only [Except.bind_ok_iff, Except.require_ok_iff, Except.pure_ok_iff] at h
    obtain ⟨-, hrx, m, -, rfl⟩ := h
    have hrx : (p.states k).rxHandler = none := hrx
    have hown : (p.states k).owned = true := hown
    refine ⟨follows_update rfl rfl rfl (List.Subset.refl _) rfl rfl rfl (by simp [hown]),
      keeps_update rfl fun call hc => .inl ?_, fun _ => by simp [setState, State.pending]⟩
    simp only [State.pending, hrx, Option.toList_none, List.nil_append] at hc
    exact List.mem_append_right _ hc
  · cases h
    exact ⟨follows_same rfl rfl rfl (by simp [post]), keeps_same rfl, fun hown => absurd hown (by assumption)⟩

/-- Started, the send is pending on its state; a send that was pending there
before is not any more. -/
theorem asyncSendTo_follows (p : Port) (k : Nat) (buffers : List (List UInt8)) (dst : Nat) :
    Follows p (p.asyncSendTo k buffers dst) ∧
      ((p.states k).txHandler = none → ∀ j, Keeps p (p.asyncSendTo k buffers dst) j) ∧
      ((p.states k).owned = true → p.calls ∈ ((p.asyncSendTo k buffers dst).states k).pending) := by
  simp only [asyncSendTo]
  split
  · next hown =>
    refine ⟨follows_update rfl rfl rfl (List.Subset.refl _) rfl rfl rfl (by simp [hown]),
      fun htx => keeps_update rfl fun call hc => .inl ?_, fun _ => by simp [setState, State.pending]⟩
    simp only [State.pending, htx, Option.toList_none, List.append_nil] at hc
    exact List.mem_append_left _ hc
  · next hown =>
    exact ⟨follows_same rfl rfl rfl (by simp [post]), fun _ => keeps_same rfl, fun h => absurd h hown⟩

theorem onSent_follows (p : Port) (k : Nat) (ec : ErrorCode) (size : Nat) :
    Follows p (p.onSent k ec size) ∧ ∀ j, Keeps p (p.onSent k ec size) j := by
  unfold onSent
  split
  · exact ⟨follows_same rfl rfl rfl (List.Subset.refl _), keeps_same rfl⟩
  · next call htx =>
    refine ⟨follows_update rfl rfl rfl (by simp [post, setState]) rfl rfl rfl fun _ => ?_,
      keeps_update rfl fun c hc => ?_⟩
    · simp [State.pending]
    · simp only [State.pending, htx, List.mem_append, Option.mem_toList, Option.some.injEq] at hc
      rcases hc with hc | rfl
      · exact .inl (by simp [State.pending, hc])
      · exact .inr hasPosted_post

theorem finishSend_follows (p : Port) (s : Send) (ec : ErrorCode) (size : Nat) :
    Follows p (p.finishSend s ec size) ∧ ∀ j, Keeps p (p.finishSend s ec size) j := by
  have hq : Follows p { p with inFlight := p.inFlight.erase s } := follows_same rfl rfl rfl (List.Subset.refl _)
  obtain ⟨hs, hks⟩ := onSent_follows { p with inFlight := p.inFlight.erase s } s.state ec size
  have hr := release_follows (onSent { p with inFlight := p.inFlight.erase s } s.state ec size) s.state
  exact ⟨(hq.trans hs).trans hr, fun j => Keeps.trans (hks j) (keeps_same (release_states _ _) j) hr.posted⟩

theorem sendCompleted_follows (p : Port) (s : Send) (ec : ErrorCode) (size : Nat) :
    Follows p (p.sendCompleted s ec size) ∧ ∀ j, Keeps p (p.sendCompleted s ec size) j := by
  unfold sendCompleted
  split
  · exact ⟨follows_same rfl rfl rfl (List.Subset.refl _), keeps_same rfl⟩
  · exact finishSend_follows p s _ _

theorem sendToSignal_follows {p p' : Port} (h : p.sendToSignal = .ok p') : Follows p p' ∧ ∀ j, Keeps p p' j := by
  unfold sendToSignal at h
  split at h
  · cases h
    exact ⟨follows_same rfl rfl rfl (List.Subset.refl _), keeps_same rfl⟩
  · split at h
    · cases h
    · cases h
      exact ⟨follows_same rfl rfl rfl (List.Subset.refl _), keeps_same rfl⟩

theorem onSentEnd_follows (p : Port) : Follows p p.onSentEnd ∧ ∀ j, Keeps p p.onSentEnd j := by
  unfold onSentEnd
  split
  · exact ⟨follows_same rfl rfl rfl (List.Subset.refl _), keeps_same rfl⟩
  · next c rest _ =>
    have hq : Follows p { p with completing := rest } := follows_same rfl rfl rfl (List.Subset.refl _)
    obtain ⟨hf, hk⟩ := finishSend_follows { p with completing := rest } c.send c.ec c.size
    exact ⟨hq.trans hf, hk⟩

theorem handleRead_follows {p p' : Port} {k size : Nat} {ec : ErrorCode}
    (h : p.handleRead k ec size = .ok p') : Follows p p' ∧ ∀ j, Keeps p p' j := by
  simp only [handleRead] at h
  split at h
  · cases h
    exact ⟨follows_same rfl rfl rfl (List.Subset.refl _), keeps_same rfl⟩
  · cases h
  · next call ep hrx _ =>
    split at h
    · cases h
    · cases h
      refine ⟨follows_update rfl rfl rfl (by simp [post, setState]) rfl rfl rfl fun _ => ?_,
        keeps_update rfl fun c hc => ?_⟩
      · simp [State.pending]
      · simp only [State.pending, hrx, List.mem_append, Option.mem_toList, Option.some.injEq] at hc
        rcases hc with rfl | hc
        · exact .inr hasPosted_post
        · exact .inl (by simp [State.pending, hc])

theorem flushNext_follows {p p' : Port} (h : p.flushNext = .ok p') : Follows p p' ∧ ∀ j, Keeps p p' j := by
  simp only [flushNext, Except.bind_ok_iff] at h
  obtain ⟨m, -, h⟩ := h
  have hm : Follows p { p with multiplexer := m } := follows_same rfl rfl rfl (List.Subset.refl _)
  split at h
  · obtain ⟨hf, hk⟩ := handleRead_follows h
    exact ⟨hm.trans hf, hk⟩
  · cases h
    exact ⟨hm, keeps_same rfl⟩

/-- What happens at a port while its `udp_multiplexer`s are not called. -/
theorem step_follows {p p' : Port} {ev : Event} (h : p.step ev = .ok p')
    (hev : Hub.isCompletion ev = true) : Follows p p' ∧ ∀ j, Keeps p p' j := by
  have same : ∀ m : Multiplexer Entry, Follows p { p with multiplexer := m } ∧
      ∀ j, Keeps p { p with multiplexer := m } j := fun m =>
    ⟨follows_same rfl rfl rfl (List.Subset.refl _), keeps_same rfl⟩
  cases ev with
  | sent s ec size =>
    cases h
    exact sendCompleted_follows p s ec size
  | sendToSignal => exact sendToSignal_follows h
  | sentEnd =>
    cases h
    exact onSentEnd_follows p
  | next => exact flushNext_follows h
  | unlink =>
    cases h
    exact same _
  | register | flushed =>
    simp only [step, Except.bind_ok_iff, Except.pure_ok_iff] at h
    obtain ⟨m, -, rfl⟩ := h
    exact same m
  | received =>
    simp only [step, Except.bind_ok_iff, Except.pure_ok_iff] at h
    obtain ⟨-, -, m, -, rfl⟩ := h
    exact same m
  | bind | asyncReceiveFrom | asyncSendTo | close | closeLast | setEndpoint | destroy => cases hev

theorem postAborted_posted (p : Port) (call : Option Nat) :
    p.posted ⊆ (p.postAborted call).posted ∧ ∀ c ∈ call, (p.postAborted call).HasPosted c := by
  cases call with
  | none => exact ⟨List.Subset.refl _, nofun⟩
  | some call =>
    refine ⟨by simp [postAborted, post], ?_⟩
    rintro c ⟨⟩
    exact hasPosted_post

/-- Closing takes everything from the state and posts what it had pending. -/
theorem close_states {p : Port} {k : Nat} (h : (p.states k).owned = true) :
    ((p.close k).states k).Closed ∧ ((p.close k).states k).owned = false ∧
      (∀ j, j ≠ k → (p.close k).states j = p.states j) ∧ (∀ j, Keeps p (p.close k) j) ∧
      p.posted ⊆ (p.close k).posted ∧ (p.close k).opened = p.opened ∧ (p.close k).alive = p.alive := by
  obtain ⟨hrx, hrxs⟩ := postAborted_posted p (p.states k).rxHandler
  obtain ⟨htx, htxs⟩ := postAborted_posted (p.postAborted (p.states k).rxHandler) (p.states k).txHandler
  obtain ⟨q, hq, -, hopened, halive, -, hposted, hstates⟩ := close_of_owned h
  have hr := release_follows q k
  rw [hq, release_states]
  have hsub : p.posted ⊆ (q.release k).posted := by
    refine List.Subset.trans ?_ hr.posted
    rw [hposted]
    exact List.Subset.trans hrx htx
  refine ⟨by rw [hstates]; simpa using ⟨rfl, rfl, rfl⟩, by rw [hstates]; simp, fun j hj => by rw [hstates]; simp [hj],
    fun j => keeps_update (by rw [release_states, hstates]) (fun call hc => .inr ?_) j, hsub,
    hr.opened.trans hopened, hr.alive.trans halive⟩
  have hc : ((p.postAborted (p.states k).rxHandler).postAborted (p.states k).txHandler).HasPosted call := by
    simp only [State.pending, List.mem_append, Option.mem_toList] at hc
    rcases hc with hc | hc
    · exact (hrxs call hc).mono htx
    · exact htxs call hc
  exact hc.mono (by rw [← hposted]; exact hr.posted)

theorem close_alive (p : Port) (k : Nat) : (p.close k).alive = p.alive := by
  by_cases h : (p.states k).owned = true
  · exact (close_states h).2.2.2.2.2.2
  · simp [close, h]

end Port

end AsioUtp
