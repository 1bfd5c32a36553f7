/-
What a failed send does to the sockets of its context: it closes every one of
them, and `utp_close` may make further sends that fail.

What that leaves of each socket is said once (`Shuts`), and when it ends
without a fault (`sends_ok`).
-/
import AsioUtp.Operations

namespace AsioUtp

namespace World

open Machine

/-! ## What a failed send does -/

/-- Closed, with nothing pending. -/
def Shut (w : World) (i : Nat) : Prop :=
  (w.impls i).closed = true ∧ ∀ slot, (w.impls i).handlers slot = none

/-- A socket closed in between. -/
structure ShutAt (w w' : World) (j : Nat) : Prop where
  opened : (w.impls j).closed = false
  shut : w'.Shut j
  utpSocket : (w'.impls j).utpSocket = (w.impls j).utpSocket

/-- Some sockets are closed, and of the others only data changes. -/
structure Shuts (w w' : World) : Prop where
  registered : w'.registeredSockets = w.registeredSockets
  alive : w'.ctx.alive = w.ctx.alive
  posted : ∀ c ∈ w.posted, c ∈ w'.posted
  impl : ∀ j, SameButSent (w.impls j) (w'.impls j) ∨ ShutAt w w' j

theorem SameButSent.refl (s : SocketImpl) : SameButSent s s := .tx s s.txBuffers s.bytesSent

theorem SameButSent.update {impls : Nat → SocketImpl} {i : Nat} {s : SocketImpl} (h : SameButSent (impls i) s)
    (j : Nat) : SameButSent (impls j) (Function.update impls i s j) := by
  by_cases hji : j = i
  · subst hji
    rw [Function.update_self]
    exact h
  · rw [Function.update_of_ne hji]
    exact .refl _

theorem SameButSent.trans {s s' s'' : SocketImpl} (h : SameButSent s s') (h' : SameButSent s' s'') :
    SameButSent s s'' :=
  ⟨⟨h'.utpSocket.trans h.utpSocket, h'.owner.trans h.owner, h'.closed.trans h.closed, h'.gotEof.trans h.gotEof,
    h'.handlers.trans h.handlers, h'.decrementClose.trans h.decrementClose⟩,
    h'.rxBufferQueue.trans h.rxBufferQueue, h'.rxBuffers.trans h.rxBuffers⟩

theorem Shut.same {w w' : World} {i : Nat} (h : w.Shut i) (hs : SameButSent (w.impls i) (w'.impls i)) : w'.Shut i := by
  refine ⟨by rw [hs.closed]; exact h.1, fun slot => ?_⟩
  rw [hs.handlers]
  exact h.2 slot

theorem Shuts.refl (w : World) : Shuts w w := ⟨rfl, rfl, fun _ h => h, fun _ => .inl (.refl _)⟩

theorem Shuts.trans {w w' w'' : World} (h : Shuts w w') (h' : Shuts w' w'') : Shuts w w'' := by
  refine ⟨h'.registered.trans h.registered, h'.alive.trans h.alive, fun c hc => h'.posted c (h.posted c hc),
    fun j => ?_⟩
  rcases h.impl j with hs | hs
  · rcases h'.impl j with hs' | hs'
    · exact .inl (hs.trans hs')
    · exact .inr ⟨by rw [← hs.closed]; exact hs'.opened, hs'.shut, hs'.utpSocket.trans hs.utpSocket⟩
  · rcases h'.impl j with hs' | hs'
    · exact .inr ⟨hs.opened, hs.shut.same hs', hs'.utpSocket.trans hs.utpSocket⟩
    · have := hs'.opened
      rw [hs.shut.1] at this
      cases this

theorem Shuts.closed {w w' : World} (h : Shuts w w') {j : Nat} (hc : (w.impls j).closed = true) :
    SameButSent (w.impls j) (w'.impls j) := by
  rcases h.impl j with hs | hs
  · exact hs
  · have := hs.opened
    rw [hc] at this
    cases this

theorem Shuts.shut {w w' : World} (h : Shuts w w') {j : Nat} (hs : w.Shut j) : w'.Shut j := hs.same (h.closed hs.1)

theorem Shuts.utpSocket {w w' : World} (h : Shuts w w') (j : Nat) :
    (w'.impls j).utpSocket = (w.impls j).utpSocket := by
  rcases h.impl j with hs | hs
  · exact hs.utpSocket
  · exact hs.utpSocket

/-- `close_with_error` up to `utp_close`. -/
theorem shutAt_shutUtp {w : World} {i : Nat} (ec : ErrorCode) (hopen : (w.impls i).closed = false) :
    ShutAt w (w.shutUtp i ec) i := by
  obtain ⟨utp, heq, -⟩ := shutUtp_eq w i ec
  rw [heq]
  exact ⟨hopen, ⟨by simp, by simp⟩, by simp⟩

theorem shuts_shutUtp {w : World} {i : Nat} (ec : ErrorCode) (hopen : (w.impls i).closed = false) :
    Shuts w (w.shutUtp i ec) := by
  have hi := shutAt_shutUtp ec hopen
  obtain ⟨utp, heq, -⟩ := shutUtp_eq w i ec
  rw [heq] at hi ⊢
  refine ⟨rfl, rfl, fun c hc => List.mem_append_left _ hc, fun j => ?_⟩
  by_cases hji : j = i
  · subst hji
    exact .inr hi
  · refine .inl ?_
    show SameButSent (w.impls j) (Function.update w.impls i _ j)
    rw [Function.update_of_ne hji]
    exact .refl _

/-- Closing the registered sockets one after the other. -/
theorem foldlM_shuts {close : World → Nat → ErrorCode → Except Fault World} {ec : ErrorCode}
    (hclose : ∀ w i w', close w i ec = .ok w' → Shuts w w' ∧ w'.Shut i) {l : List Nat} {w w' : World}
    (h : l.foldlM (fun w i => close w i ec) w = .ok w') : Shuts w w' ∧ ∀ i ∈ l, w'.Shut i := by
  induction l generalizing w with
  | nil =>
    cases h
    exact ⟨.refl _, by simp⟩
  | cons i l ih =>
    rw [List.foldlM_cons, Except.bind_ok_iff] at h
    obtain ⟨w₁, h1, h⟩ := h
    obtain ⟨hs1, hi⟩ := hclose w i w₁ h1
    obtain ⟨hs, hl⟩ := ih h
    refine ⟨hs1.trans hs, fun j hj => ?_⟩
    rcases List.mem_cons.1 hj with rfl | hj
    · exact hs.shut hi
    · exact hl j hj

/-- A send is made while the multiplexer is there, and fails. -/
def Fails (w : World) (ecs : List ErrorCode) : Prop := w.ctx.alive = true ∧ ∃ ec ∈ ecs, fatal ec = true

theorem sendsWith_shuts {close : World → Nat → ErrorCode → Except Fault World}
    (hclose : ∀ w i ec w', close w i ec = .ok w' → Shuts w w' ∧ w'.Shut i) {ecs : List ErrorCode} {w w' : World}
    (h : ecs.foldlM (callbackSendtoWith close) w = .ok w') :
    Shuts w w' ∧ (w.Fails ecs → ∀ i ∈ w.registeredSockets, w'.Shut i) := by
  induction ecs generalizing w with
  | nil =>
    cases h
    exact ⟨.refl _, fun hf => by obtain ⟨-, ec, hec, -⟩ := hf; cases hec⟩
  | cons ec ecs ih =>
    rw [List.foldlM_cons, Except.bind_ok_iff] at h
    obtain ⟨w₁, h1, h⟩ := h
    obtain ⟨hs, hall⟩ := ih h
    unfold callbackSendtoWith at h1
    split at h1
    · next hfail =>
      obtain ⟨hs1, hall1⟩ := foldlM_shuts (fun w i w' => hclose w i ec w') h1
      exact ⟨hs1.trans hs, fun _ i hi => hs.shut (hall1 i hi)⟩
    · next hfail =>
      cases h1
      refine ⟨hs, fun hf => hall ⟨hf.1, ?_⟩⟩
      obtain ⟨halive, ec', hec', hfatal⟩ := hf
      rcases List.mem_cons.1 hec' with rfl | hec'
      · exact absurd ⟨halive, hfatal⟩ hfail
      · exact ⟨ec', hec', hfatal⟩

theorem finishClose_shuts {w w₁ w' : World} {i : Nat} (h : Shuts w w₁) (hi : ShutAt w w₁ i)
    (hf : w₁.finishClose i = .ok w') : Shuts w w' ∧ w'.Shut i := by
  obtain ⟨-, c, hc, rfl⟩ := finishClose_ok_iff.1 hf
  have hshut : ShutAt w { w₁ with
      ctx := c
      impls := Function.update w₁.impls i { w₁.impls i with owner := none, decrementClose := true }
      sockets := (w₁.impls i).owner.elim w₁.sockets fun v =>
        Function.update w₁.sockets v { w₁.sockets v with impl := none } } i := by
    refine ⟨hi.opened, ⟨?_, fun slot => ?_⟩, ?_⟩
    · simpa using hi.shut.1
    · simpa using hi.shut.2 slot
    · simpa using hi.utpSocket
  refine ⟨⟨h.registered, (Context.increment_alive hc).1.trans h.alive, h.posted, fun j => ?_⟩, hshut.shut⟩
  by_cases hji : j = i
  · subst hji
    exact .inr hshut
  · rcases h.impl j with hs | hs
    · refine .inl ?_
      show SameButSent (w.impls j) (Function.update w₁.impls i _ j)
      rw [Function.update_of_ne hji]
      exact hs
    · refine .inr ⟨hs.opened, ?_, ?_⟩
      · simpa [Shut, hji] using hs.shut
      · simpa [hji] using hs.utpSocket

theorem closeWithErrorDepth_shuts {depth : Nat} {w w' : World} {i : Nat} {ec : ErrorCode}
    (h : closeWithErrorDepth depth w i ec = .ok w') : Shuts w w' ∧ w'.Shut i := by
  induction depth generalizing w w' i ec with
  | zero => cases h
  | succ depth ih =>
    rcases closeWithErrorDepth_ok h with ⟨hc, hslots, rfl⟩ | ⟨hc, -, rfl⟩ | ⟨u, w₁, hc, -, -, hsends, hfin⟩
    · exact ⟨.refl _, hc, hslots⟩
    · exact ⟨shuts_shutUtp ec hc, (shutAt_shutUtp ec hc).shut⟩
    · have hshut := shutAt_shutUtp ec hc
      obtain ⟨hs, -⟩ := sendsWith_shuts (fun w i ec w' h => ih h) hsends
      have hat : ShutAt w w₁ i := ⟨hc, hs.shut hshut.shut, (hs.utpSocket i).trans hshut.utpSocket⟩
      exact finishClose_shuts ((shuts_shutUtp ec hc).trans hs) hat hfin

/-- **Sends that end without a fault**: some sockets are closed; all of them, where a send fails. -/
theorem sends_shuts {w w' : World} {ecs : List ErrorCode} (h : w.sends ecs = .ok w') :
    Shuts w w' ∧ (w.Fails ecs → ∀ i ∈ w.registeredSockets, w'.Shut i) :=
  sendsWith_shuts (fun _ _ _ _ h => closeWithErrorDepth_shuts h) h

theorem sendsWith_same {close : World → Nat → ErrorCode → Except Fault World} {w : World} {ecs : List ErrorCode}
    (h : ¬ w.Fails ecs) : ecs.foldlM (callbackSendtoWith close) w = .ok w := by
  induction ecs with
  | nil => rfl
  | cons ec ecs ih =>
    have hec : callbackSendtoWith close w ec = .ok w := if_neg fun hf => h ⟨hf.1, ec, by simp, hf.2⟩
    rw [List.foldlM_cons, hec, Except.ok_bind]
    refine ih fun hf => h ⟨hf.1, ?_⟩
    obtain ⟨-, ec', hmem, hfatal⟩ := hf
    exact ⟨ec', by simp [hmem], hfatal⟩

theorem sends_same {w : World} {ecs : List ErrorCode} (h : ¬ w.Fails ecs) : w.sends ecs = .ok w := sendsWith_same h

/-! ## When closing everything succeeds -/

/-- A socket's close is outstanding only when it is closed. -/
def Settled (w : World) : Prop := ∀ i, (w.impls i).closed = false → (w.impls i).decrementClose = false

theorem Settled.setImpl {w w' : World} (h : Settled w) {i : Nat} {s : SocketImpl}
    (himpl : w'.impls = Function.update w.impls i s) (hs : s.closed = false → s.decrementClose = false) :
    Settled w' := by
  rw [Settled, himpl]
  exact (Function.forall_update_iff w.impls fun _ s => s.closed = false → s.decrementClose = false).2
    ⟨hs, fun j _ => h j⟩

theorem settled_move {w w' : World} {l : Label} (h : Settled w) (hm : Move w l w') : Settled w' := by
  cases hm with
  | setup | connect | waiting | take | post | accept | eof => exact h.setImpl rfl (h _)
  | @shut i ec _ _ _ =>
    obtain ⟨utp, heq, -⟩ := shutUtp_eq w i ec
    exact h.setImpl (by rw [heq]) fun hc => by simp at hc
  | finish hclosed hf =>
    obtain ⟨-, c, -, rfl⟩ := finishClose_ok_iff.1 hf
    refine h.setImpl rfl fun hc => ?_
    have hc : (w.impls _).closed = false := hc
    rw [hclosed] at hc
    cases hc
  | data hs | received hs =>
    refine h.setImpl rfl fun hc => ?_
    rw [hs.closed] at hc
    rw [hs.decrementClose]
    exact h _ hc
  | destroy => exact h.setImpl rfl fun hc => by simp at hc
  | decrement => exact h.setImpl rfl fun _ => rfl
  | bind =>
    unfold World.bind
    split
    · exact h
    · exact h.setImpl rfl fun _ => rfl
  | moveConstruct =>
    unfold World.moveConstruct
    dsimp only
    split
    · exact h.setImpl rfl (h _)
    · exact h
  | ran =>
    unfold World.ran
    split
    · exact h
    · dsimp only
      split <;> exact h
  | direct | wrote | create | die | number | socket | release | assign | run | loop => exact h

/-- What every move keeps of the sockets. -/
structure Regular (w : World) : Prop where
  sound : Sound w
  placed : Placed w
  settled : Settled w

theorem Regular.move {w w' : World} {l : Label} (h : Regular w) (hm : Move w l w') : Regular w' :=
  ⟨⟨formed_move h.sound.formed hm, handles_move h.sound.formed h.sound.handles hm⟩,
    placed_move h.sound.formed h.placed hm, settled_move h.settled hm⟩

/-- Where `close_with_error` cannot fault. -/
structure Closable (w : World) : Prop where
  sound : Sound w
  settled : Settled w
  idle : ∀ i, (w.impls i).closed = true → ∀ slot, (w.impls i).handlers slot = none

theorem Shuts.closable {w w' : World} (h : Shuts w w') (hw : Closable w) (hsound : Sound w') : Closable w' := by
  refine ⟨hsound, fun i hopen => ?_, fun i hc => ?_⟩
  · rcases h.impl i with hs | hs
    · rw [hs.decrementClose]
      exact hw.settled i (by rw [← hs.closed]; exact hopen)
    · rw [hs.shut.1] at hopen
      cases hopen
  · rcases h.impl i with hs | hs
    · rw [hs.handlers]
      exact hw.idle i (by rw [← hs.closed]; exact hc)
    · exact hs.shut.2

/-- How many sockets are open. -/
def openSockets (w : World) : Nat := w.registeredSockets.countP fun i => !(w.impls i).closed

theorem Shuts.countP_open {w w' : World} (h : Shuts w w') (l : List Nat) :
    l.countP (fun i => !(w'.impls i).closed) ≤ l.countP fun i => !(w.impls i).closed := by
  refine List.countP_mono_left fun i _ hi => ?_
  rcases h.impl i with hs | hs
  · rwa [hs.closed] at hi
  · simp [hs.shut.1] at hi

theorem Shuts.openSockets_le {w w' : World} (h : Shuts w w') : w'.openSockets ≤ w.openSockets := by
  unfold openSockets
  rw [h.registered]
  exact h.countP_open _

theorem Shuts.openSockets_lt {w w' : World} (h : Shuts w w') {i : Nat} (hi : i ∈ w.registeredSockets)
    (hs : ShutAt w w' i) : w'.openSockets < w.openSockets := by
  obtain ⟨l₁, l₂, hl⟩ := List.append_of_mem hi
  have h1 := h.countP_open l₁
  have h2 := h.countP_open l₂
  unfold openSockets
  rw [h.registered, hl]
  simp only [List.countP_append, List.countP_cons, hs.shut.1, hs.opened, Bool.not_true, Bool.not_false,
    Bool.false_eq_true, if_false, if_true]
  omega

/-- Closing a socket ends without a fault wherever nothing is wrong and `Q` holds. -/
structure Ends (close : World → Nat → ErrorCode → Except Fault World) (Q : World → Prop) : Prop where
  mono : ∀ w w', Shuts w w' → Q w → Q w'
  closes : ∀ w i ec, Closable w → i ∈ w.registeredSockets → Q w →
    ∃ w', close w i ec = .ok w' ∧ Closable w' ∧ Shuts w w'

theorem Ends.foldlM {close : World → Nat → ErrorCode → Except Fault World} {Q : World → Prop} (h : Ends close Q)
    {ec : ErrorCode} {l : List Nat} {w : World} (hw : Closable w)
    (hl : ∀ i ∈ l, i ∈ w.registeredSockets) (hQ : Q w) :
    ∃ w', l.foldlM (fun w i => close w i ec) w = .ok w' ∧ Closable w' ∧ Shuts w w' := by
  induction l generalizing w with
  | nil => exact ⟨w, rfl, hw, .refl _⟩
  | cons i l ih =>
    obtain ⟨w₁, h1, hw1, hs1⟩ := h.closes w i ec hw (hl i (by simp)) hQ
    obtain ⟨w', h2, hw', hs2⟩ := ih hw1 (fun j hj => by rw [hs1.registered]; exact hl j (by simp [hj]))
      (h.mono _ _ hs1 hQ)
    exact ⟨w', by rw [List.foldlM_cons, h1, Except.ok_bind, h2], hw', hs1.trans hs2⟩

theorem Ends.sends {close : World → Nat → ErrorCode → Except Fault World} {Q : World → Prop} (h : Ends close Q)
    (ecs : List ErrorCode) {w : World} (hw : Closable w) (hQ : Q w) :
    ∃ w', ecs.foldlM (callbackSendtoWith close) w = .ok w' ∧ Closable w' ∧ Shuts w w' := by
  induction ecs generalizing w with
  | nil => exact ⟨w, rfl, hw, .refl _⟩
  | cons ec ecs ih =>
    obtain ⟨w₁, h1, hw1, hs1⟩ : ∃ w₁, callbackSendtoWith close w ec = .ok w₁ ∧ Closable w₁ ∧ Shuts w w₁ := by
      unfold callbackSendtoWith
      split
      · exact h.foldlM hw (fun _ hi => hi) hQ
      · exact ⟨w, rfl, hw, .refl _⟩
    obtain ⟨w', h2, hw', hs2⟩ := ih hw1 (h.mono _ _ hs1 hQ)
    exact ⟨w', by rw [List.foldlM_cons, h1, Except.ok_bind, h2], hw', hs1.trans hs2⟩

/-- What `close_with_error` answers, if it does, is closable again. -/
theorem closeWithErrorDepth_closable {depth : Nat} {w w' : World} {i : Nat} {ec : ErrorCode}
    (hw : Closable w) (hi : i ∈ w.registeredSockets) (h : closeWithErrorDepth depth w i ec = .ok w') :
    Closable w' ∧ Shuts w w' := by
  obtain ⟨hs, -⟩ := closeWithErrorDepth_shuts h
  have htr := closeWithErrorDepth_traces depth w i ec hi
  rw [h] at htr
  exact ⟨hs.closable hw (htr.keeps Sound (fun _ _ h hm => sound_move h hm) hw.sound), hs⟩

/-- Every level of re-entry closes a socket, so it ends. -/
theorem ends_depth (depth : Nat) : Ends (closeWithErrorDepth depth) fun w => w.openSockets < depth := by
  refine ⟨fun w w' hs hlt => hs.openSockets_le.trans_lt hlt, ?_⟩
  induction depth with
  | zero => exact fun w i ec _ _ hopen => absurd hopen (Nat.not_lt_zero _)
  | succ depth ih =>
    intro w i ec hw hi hopen
    suffices hok : ∃ w', closeWithErrorDepth (depth + 1) w i ec = .ok w' by
      obtain ⟨w', hw'⟩ := hok
      exact ⟨w', hw', closeWithErrorDepth_closable hw hi hw'⟩
    cases hc : (w.impls i).closed with
    | true =>
      rcases closeWithErrorDepth_closed depth hc ec with ⟨-, heq⟩ | ⟨slot, hp, -⟩
      · exact ⟨w, heq⟩
      · exact absurd (hw.idle i hc slot) hp
    | false =>
      by_cases hutp : (w.impls i).utpSocket = none ∨ (w.impls i).gotEof = true
      · exact ⟨_, (closeWithErrorDepth_simple depth ec hc hutp).1⟩
      · obtain ⟨hne, heof⟩ := not_or.1 hutp
        obtain ⟨u, hu⟩ := Option.ne_none_iff_exists'.1 hne
        have halive := (hw.sound.handles.attached i u hu).2.1
        have hshuts := shuts_shutUtp ec hc
        have hshut := shutAt_shutUtp ec hc
        have hmove : Move w (.shut i ec) (w.shutUtp i ec) := .shut hi hc fun u' hu' _ => by
          rw [hu] at hu'
          cases hu'
          exact halive
        have hw1 := hshuts.closable hw
          ⟨formed_move hw.sound.formed hmove, handles_move hw.sound.formed hw.sound.handles hmove⟩
        have hlt := hshuts.openSockets_lt hi hshut
        have hends : Ends (closeWithErrorDepth depth) fun w => w.openSockets < depth :=
          ⟨fun w w' hs hlt => hs.openSockets_le.trans_lt hlt, ih⟩
        obtain ⟨w₁, hsends, -, hs⟩ := hends.sends (w.utp u).onClose hw1 (by omega)
        -- The sends found the socket closed, and left it alone.
        have hdecr : (w₁.impls i).decrementClose = false := by
          rw [(hs.closed hshut.shut.1).decrementClose]
          obtain ⟨utp, heq, -⟩ := shutUtp_eq w i ec
          rw [heq]
          simpa using hw.settled i hc
        obtain ⟨t, m, hinc⟩ := Context.increment_spec w₁.ctx
        rw [closeWithErrorDepth_utp ec hc hu (by simpa using heof)]
        simp only [Except.require, halive, if_true, Except.ok_bind, hsends]
        exact ⟨_, finishClose_ok_iff.2 ⟨hdecr, _, hinc, rfl⟩⟩

theorem ends_closeWithError : Ends closeWithError fun _ => True := by
  refine ⟨fun _ _ _ _ => trivial, fun w i ec hw hi _ => (ends_depth _).closes w i ec hw hi ?_⟩
  have : w.openSockets ≤ w.registeredSockets.length := List.countP_le_length
  omega

/-- **Where no closed socket has an operation pending, sends do not fault**, whatever they answer. -/
theorem sends_ok {w : World} (hw : Closable w) (ecs : List ErrorCode) :
    ∃ w', w.sends ecs = .ok w' ∧ Closable w' ∧ Shuts w w' :=
  ends_closeWithError.sends ecs hw trivial

theorem reachable_regular {w : World} (h : Reachable Enabled step {} w) : Regular w := by
  refine h.invariant Regular (fun w ev w' hw hen hs => ?_) ⟨sound_init, placed_init, fun _ _ => rfl⟩
  refine ((hw.sound.step_traces hen).outcome Regular (fun s s' h hm => ?_) hw).1 w' hs
  obtain ⟨l, -, hm⟩ := hm
  exact h.move hm

end World

end AsioUtp
