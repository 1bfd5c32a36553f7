/-
A `socket` and its `socket_impl` point at each other.

`Owned` says so of one world: an open `socket_impl` has an owner that has it,
and no two `socket`s have the same. The one move that could break it is the
end of `close_with_error`, which clears whatever its owner points at; it does
no harm because whoever is closed was open, and so owned, when closing it
began (`OwnerSound`), however often `utp_close` has re-entered since.
-/
import AsioUtp.Handles

namespace AsioUtp

namespace World

open Machine Relation

/-! ## One world -/

structure Owned (w : World) : Prop where
  owner : ∀ i ∈ w.registeredSockets, (w.impls i).closed = false →
    ∃ v, (w.impls i).owner = some v ∧ (w.sockets v).impl = some i
  unique : ∀ v v' i, (w.sockets v).impl = some i → (w.sockets v').impl = some i → v = v'

theorem owned_init : Owned {} := ⟨by simp, by simp⟩

/-- A change that moves no `socket` and opens nothing. -/
theorem Owned.same {w w' : World} (h : Owned w) (hreg : w'.registeredSockets = w.registeredSockets)
    (hsock : w'.sockets = w.sockets)
    (himpl : ∀ j, (w'.impls j).closed = false →
      (w.impls j).closed = false ∧ (w'.impls j).owner = (w.impls j).owner) : Owned w' where
  owner i hi hc := by
    rw [hreg] at hi
    rw [(himpl i hc).2, hsock]
    exact h.owner i hi (himpl i hc).1
  unique := by
    rw [hsock]
    exact h.unique

/-- The same, where one impl changes. -/
theorem Owned.setImpl {w w' : World} (h : Owned w) {i : Nat} {s : SocketImpl}
    (himpl : w'.impls = Function.update w.impls i s) (hreg : w'.registeredSockets = w.registeredSockets)
    (hsock : w'.sockets = w.sockets)
    (hs : s.closed = false → (w.impls i).closed = false ∧ s.owner = (w.impls i).owner) : Owned w' := by
  refine h.same hreg hsock ?_
  rw [himpl]
  exact (Function.forall_update_iff w.impls fun j s =>
    s.closed = false → (w.impls j).closed = false ∧ s.owner = (w.impls j).owner).2 ⟨hs, fun j _ hj => ⟨hj, rfl⟩⟩

/-- A `socket` lets go of what it has, which is closed; it takes nothing. -/
theorem Owned.drop {w w' : World} (h : Owned w) {v : Nat} {s : Socket} (hs : s.impl = none)
    (hv : ∀ i ∈ w.registeredSockets, (w.sockets v).impl = some i → (w'.impls i).closed = true)
    (hsock : w'.sockets = Function.update w.sockets v s) (hreg : w'.registeredSockets = w.registeredSockets)
    (himpl : ∀ j, (w'.impls j).closed = false →
      (w.impls j).closed = false ∧ (w'.impls j).owner = (w.impls j).owner) : Owned w' := by
  have hkeep : ∀ v' i, (w'.sockets v').impl = some i → (w.sockets v').impl = some i := fun v' i hi => by
    rw [hsock] at hi
    by_cases hvv : v' = v
    · subst hvv
      rw [Function.update_self, hs] at hi
      cases hi
    · rwa [Function.update_of_ne hvv] at hi
  refine ⟨fun i hi hc => ?_, fun v₁ v₂ i h₁ h₂ => h.unique v₁ v₂ i (hkeep v₁ i h₁) (hkeep v₂ i h₂)⟩
  rw [hreg] at hi
  obtain ⟨v', howner, hv'⟩ := h.owner i hi (himpl i hc).1
  refine ⟨v', (himpl i hc).2.trans howner, ?_⟩
  have hne : v' ≠ v := fun heq => by
    rw [hv i hi (heq ▸ hv')] at hc
    cases hc
  rw [hsock, Function.update_of_ne hne]
  exact hv'

theorem owned_bind {w : World} {v : Nat} (hw : Formed w) (h : Owned w) : Owned (w.bind v) := by
  unfold World.bind
  split
  · exact h
  · next hnone =>
    have hfresh : ∀ i ∈ w.registeredSockets, i ≠ w.registeredSockets.length := fun i hi heq =>
      hw.unregistered (heq ▸ hi)
    refine ⟨fun i hi hc => ?_, fun v₁ v₂ i h₁ h₂ => ?_⟩
    · by_cases hnew : i = w.registeredSockets.length
      · exact ⟨v, by simp [setImpl, setSocket, hnew], by simp [setImpl, setSocket, hnew]⟩
      · have hi : i ∈ w.registeredSockets := by simpa [setImpl, hnew] using hi
        simp only [World.setImpl, setSocket, Function.update_of_ne hnew] at hc ⊢
        obtain ⟨v', howner, hv'⟩ := h.owner i hi hc
        refine ⟨v', howner, ?_⟩
        rw [Function.update_of_ne fun heq => by rw [heq, hnone] at hv'; cases hv']
        exact hv'
    · -- The new impl is only the new owner's; whoever has another had it before.
      have hold : ∀ v', v' ≠ v → (Function.update w.sockets v
          { impl := some w.registeredSockets.length, multiplexer := true } v').impl = some i →
          (w.sockets v').impl = some i := fun v' hv' hi => by rwa [Function.update_of_ne hv'] at hi
      simp only [World.setImpl, setSocket] at h₁ h₂
      by_cases hv₁ : v₁ = v
      · by_cases hv₂ : v₂ = v
        · rw [hv₁, hv₂]
        · rw [hv₁, Function.update_self] at h₁
          cases h₁
          exact absurd rfl (hfresh _ (hw.sockets v₂ _ (hold v₂ hv₂ h₂)).1)
      · by_cases hv₂ : v₂ = v
        · rw [hv₂, Function.update_self] at h₂
          cases h₂
          exact absurd rfl (hfresh _ (hw.sockets v₁ _ (hold v₁ hv₁ h₁)).1)
        · exact h.unique v₁ v₂ i (hold v₁ hv₁ h₁) (hold v₂ hv₂ h₂)

/-- What move construction does to the impls: the one that moves has a new owner. -/
theorem moveConstruct_eq (w : World) (v : Nat) :
    (w.moveConstruct v).sockets = Function.update (Function.update w.sockets v {}) w.made (w.sockets v) ∧
      (w.moveConstruct v).registeredSockets = w.registeredSockets ∧
      ∀ i, (w.moveConstruct v).impls i =
        if (w.sockets v).impl = some i then { w.impls i with owner := some w.made } else w.impls i := by
  unfold moveConstruct
  dsimp only
  split
  · next i hi =>
    refine ⟨rfl, rfl, fun j => ?_⟩
    rw [hi]
    by_cases hji : j = i
    · subst hji
      simp [World.setImpl, setSocket]
    · simp [World.setImpl, setSocket, hji, Ne.symm hji]
  · next hnone => exact ⟨rfl, rfl, fun j => by simp [hnone, setSocket]⟩

theorem owned_moveConstruct {w : World} {v : Nat} (hw : Formed w) (h : Owned w) :
    Owned (w.moveConstruct v) := by
  obtain ⟨hsock, hreg, himpl⟩ := moveConstruct_eq w v
  -- Who had an impl before: the new object's is the old one's.
  have hbefore : ∀ v' i, ((w.moveConstruct v).sockets v').impl = some i →
      v' = w.made ∧ (w.sockets v).impl = some i ∨ v' ≠ v ∧ v' ≠ w.made ∧ (w.sockets v').impl = some i := by
    intro v' i hi
    rw [hsock] at hi
    by_cases hnew : v' = w.made
    · rw [hnew, Function.update_self] at hi
      exact .inl ⟨hnew, hi⟩
    · rw [Function.update_of_ne hnew] at hi
      by_cases hvv : v' = v
      · rw [hvv, Function.update_self] at hi
        cases hi
      · rw [Function.update_of_ne hvv] at hi
        exact .inr ⟨hvv, hnew, hi⟩
  refine ⟨fun i hi hc => ?_, fun v₁ v₂ i h₁ h₂ => ?_⟩
  · rw [hreg] at hi
    rw [himpl] at hc ⊢
    split at hc
    · next hmoved =>
      rw [if_pos hmoved]
      exact ⟨w.made, rfl, by rw [hsock, Function.update_self]; exact hmoved⟩
    · next hmoved =>
      rw [if_neg hmoved]
      obtain ⟨v', howner, hv'⟩ := h.owner i hi hc
      refine ⟨v', howner, ?_⟩
      have hlt := (hw.sockets v' i hv').2.1
      have hne : v' ≠ v := fun heq => hmoved (heq ▸ hv')
      rw [hsock, Function.update_of_ne (by omega), Function.update_of_ne hne]
      exact hv'
  · rcases hbefore v₁ i h₁ with ⟨hnew₁, hi₁⟩ | ⟨hne₁, -, hi₁⟩ <;>
      rcases hbefore v₂ i h₂ with ⟨hnew₂, hi₂⟩ | ⟨hne₂, -, hi₂⟩
    · rw [hnew₁, hnew₂]
    · exact absurd (h.unique _ _ i hi₂ hi₁) hne₂
    · exact absurd (h.unique _ _ i hi₁ hi₂) hne₁
    · exact h.unique _ _ i hi₁ hi₂

/-- The end of `close_with_error` clears no `socket` of another impl. -/
def OwnerSound (w : World) : Label → Prop
  | .finish i => ∀ v, (w.impls i).owner = some v → ∀ j, (w.sockets v).impl = some j → j = i
  | _ => True

theorem owned_finish {w w' : World} {i : Nat} (h : Owned w) (hl : OwnerSound w (.finish i))
    (hc : (w.impls i).closed = true) (hf : w.finishClose i = .ok w') : Owned w' := by
  obtain ⟨-, c, -, rfl⟩ := finishClose_ok_iff.1 hf
  have hself :
      (Function.update w.impls i { w.impls i with owner := none, decrementClose := true } i).closed = true := by
    rw [Function.update_self]
    exact hc
  have himpl : ∀ j,
      (Function.update w.impls i { w.impls i with owner := none, decrementClose := true } j).closed = false →
      (w.impls j).closed = false ∧
        (Function.update w.impls i { w.impls i with owner := none, decrementClose := true } j).owner =
          (w.impls j).owner := fun j hj => by
    have hji : j ≠ i := fun heq => by
      subst heq
      rw [hself] at hj
      cases hj
    rw [Function.update_of_ne hji] at hj ⊢
    exact ⟨hj, rfl⟩
  cases ho : (w.impls i).owner with
  | none => exact h.same rfl (by simp) himpl
  | some v =>
    refine h.drop (s := { w.sockets v with impl := none }) rfl (fun j _ hj => ?_) (by simp; rfl) rfl himpl
    rw [hl v ho j hj]
    exact hself

theorem owned_move {w w' : World} {l : Label} (hw : Formed w) (h : Owned w) (hl : OwnerSound w l)
    (hm : Move w l w') : Owned w' := by
  cases hm with
  | setup _ _ _ _ _ _ | waiting _ _ _ _ | take _ | post _ _ | decrement _ | eof =>
    exact h.setImpl rfl rfl rfl fun hc => ⟨hc, rfl⟩
  | connect _ _ _ | accept _ _ _ _ _ _ _ _ => exact h.setImpl rfl rfl rfl fun hc => ⟨hc, rfl⟩
  | data hs => exact h.setImpl rfl rfl rfl fun hc => ⟨hs.closed ▸ hc, hs.owner⟩
  | received hs => exact h.setImpl rfl rfl rfl fun hc => ⟨hs.closed ▸ hc, hs.owner⟩
  | @shut i ec _ _ _ =>
    obtain ⟨utp, heq, -⟩ := shutUtp_eq w i ec
    rw [heq]
    exact h.setImpl rfl rfl rfl fun hc => by cases hc
  | destroy _ _ _ _ => exact h.setImpl rfl rfl rfl fun hc => by cases hc
  | finish hc hf => exact owned_finish h hl hc hf
  | direct | wrote | create | die _ | number | socket | run _ | loop _ _ _ =>
    exact h.same rfl rfl fun j hj => ⟨hj, rfl⟩
  | bind _ _ => exact owned_bind hw h
  | moveConstruct _ => exact owned_moveConstruct hw h
  | release hc => exact h.drop rfl (fun i _ hi => hc i hi) rfl rfl fun j hj => ⟨hj, rfl⟩
  | @assign v v' hv hv' =>
    have hdrop : Owned (w.setSocket v' {}) :=
      h.drop rfl (fun i _ hi => by rw [hv'] at hi; cases hi) rfl rfl fun j hj => ⟨hj, rfl⟩
    refine hdrop.drop hv' (fun i _ hi => ?_) rfl rfl fun j hj => ⟨hj, rfl⟩
    by_cases hvv : v = v'
    · subst hvv
      simp at hi
    · simp [hvv, hv] at hi
  | ran =>
    unfold World.ran
    split
    · exact h
    · dsimp only
      split <;> exact h.same rfl rfl fun j hj => ⟨hj, rfl⟩

/-! ## Closing, however deep -/

/-- Closing gives no impl an owner. -/
theorem owner_after {w w' : World} {i v : Nat} (h : ReflTransGen Closes w w')
    (hi : (w'.impls i).owner = some v) : (w.impls i).owner = some v := by
  induction h with
  | refl => exact hi
  | @tail w₁ w₂ _ hm ih =>
    refine ih ?_
    obtain ⟨l, hl, hm⟩ := hm
    cases hm with
    | @shut j ec _ _ _ =>
      obtain ⟨utp, heq, -⟩ := shutUtp_eq w₁ j ec
      rw [heq] at hi
      exact (update_field SocketImpl.owner (by rfl) i).symm.trans hi
    | @finish _ j hc hf =>
      obtain ⟨-, c, -, rfl⟩ := finishClose_ok_iff.1 hf
      dsimp only at hi
      by_cases hij : i = j
      · subst hij
        simp at hi
      · rwa [Function.update_of_ne hij] at hi
    | _ => exact hl.elim

/-- The moves of closing that clear no `socket` of another impl. -/
abbrev ClosesOwn : World → World → Prop := Moves fun w l => OwnerSound w l ∧ l.Closing

/-- The pointers of one world. -/
def Paired (w : World) : Prop := Sound w ∧ Owned w

theorem paired_move {w w' : World} (h : Paired w) (hm : Moves OwnerSound w w') : Paired w' := by
  have hsound := sound_move h.1 hm
  obtain ⟨l, hl, hm⟩ := hm
  exact ⟨hsound, owned_move h.1.formed h.2 hl hm⟩

theorem paired_closesOwn {w w' : World} (h : Paired w) (hm : ClosesOwn w w') : Paired w' :=
  paired_move h (hm.mono fun _ _ hl => hl.1)

/-- At the end of closing what was open, its owner has it or nothing. -/
theorem ownerSound_finish {w w' : World} {i : Nat} {ec : ErrorCode} (h : Owned w) (hi : i ∈ w.registeredSockets)
    (hopen : (w.impls i).closed = false) (hcloses : ReflTransGen Closes (w.shutUtp i ec) w') :
    OwnerSound w' (.finish i) := by
  obtain ⟨hsock, hown⟩ : (w.shutUtp i ec).sockets = w.sockets ∧
      ((w.shutUtp i ec).impls i).owner = (w.impls i).owner := by
    obtain ⟨utp, heq, -⟩ := shutUtp_eq w i ec
    rw [heq]
    simp
  intro v howner j hj
  have howner := owner_after hcloses howner
  have hj := sockets_after hcloses hj
  rw [hown] at howner
  rw [hsock] at hj
  obtain ⟨v', howner', hi'⟩ := h.owner i hi hopen
  rw [howner] at howner'
  cases howner'
  rw [hj] at hi'
  exact Option.some.inj hi'

theorem ClosesOwn.closes {w w' : World} (h : ClosesOwn w w') : Closes w w' := h.mono fun _ _ hl => hl.2

theorem paired_shut {w : World} {i : Nat} {ec : ErrorCode} (h : Paired w) (hi : i ∈ w.registeredSockets)
    (hopen : (w.impls i).closed = false) : Paired (w.shutUtp i ec) :=
  paired_move h ⟨.shut i ec, trivial, .shut hi hopen fun u hu _ => (h.1.handles.attached i u hu).2.1⟩

theorem closeWithErrorDepth_closesOwn (depth : Nat) {w : World} (i : Nat) (ec : ErrorCode) (hw : Paired w)
    (hi : i ∈ w.registeredSockets) : Traces ClosesOwn Raises id w (closeWithErrorDepth depth w i ec) :=
  closeWithErrorDepth_tracesOf Paired (fun _ _ => paired_closesOwn)
    (fun _ _ _ hw hi hc => ⟨trivial, paired_shut hw hi hc⟩)
    (fun _ _ _ _ hw hi hc hcloses => ownerSound_finish hw.2 hi hc hcloses) depth i ec hw hi

theorem sends_closesOwn {w : World} (ecs : List ErrorCode) (hw : Paired w) :
    Traces ClosesOwn Raises id w (w.sends ecs) :=
  Traces.foldlM Paired (fun _ _ => paired_closesOwn) hw fun _ ec _ hs =>
    callbackSendtoWith_traces Paired (fun _ _ => paired_closesOwn) (fun _ _ h => h.closes.keeps_closed.1)
      (fun _ i ec hw hi => closeWithErrorDepth_closesOwn _ i ec hw hi) hs ec

/-! ## Every event -/

/-- The moves of an event: those about `socket` objects only where it is a call on one. -/
def Moving (ev : Event) (w : World) (l : Label) : Prop := OwnerSound w l ∧ (l.Object → ev.OnObjects)

theorem paired_moving {w w' : World} {ev : Event} (h : Paired w) (hm : Moves (Moving ev) w w') : Paired w' :=
  paired_move h (hm.mono fun _ _ hl => hl.1)

theorem Moving.of_closing {ev : Event} {w : World} {l : Label} (h : OwnerSound w l ∧ l.Closing) : Moving ev w l :=
  ⟨h.1, fun ho => by cases l <;> first | exact h.2.elim | exact ho.elim⟩

/-- Neither the end of closing nor about `socket` objects. -/
def Label.Apart : Label → Prop
  | .finish _ => False
  | l => ¬ l.Object

theorem Moving.of_apart {ev : Event} {w : World} {l : Label} (h : l.Apart) : Moving ev w l := by
  cases l <;> first | exact h.elim | exact ⟨trivial, fun ho => absurd ho h⟩

theorem paired_traces {w : World} {ev : Event} (h : Paired w) (hen : w.Enabled ev) :
    Traces (Moves (Moving ev)) (RaisesIn ev) id w (w.step ev) := by
  have hsends : ∀ ecs, Sends (Moving ev) w ecs := fun ecs w' hm =>
    (sends_closesOwn ecs (Traces.keeps (g := id) (F := Raises) (a := w') Paired (fun _ _ => paired_moving) hm h)).mono
      (Moves.mono fun _ _ hl => ⟨.of_closing hl, hl.2⟩) fun _ _ h => h
  have hclose : ∀ v i, (w.sockets v).impl = some i → (w.impls i).closed = false →
      Traces (Moves (Moving ev)) Raises id w (w.closeWithError i .operationAborted) := fun v i hi _ =>
    (closeWithErrorDepth_closesOwn _ i _ h (h.1.formed.sockets v i hi).1).mono
      (Moves.mono fun _ _ hl => .of_closing hl) fun _ _ h => h
  have hstarts : Starts (Moving ev) w ev := by
    have hapart : ∀ w l, l.Apart → Moving ev w l := fun _ _ => .of_apart
    cases ev with
    | asyncConnect v ep ecs onClose => exact ⟨hapart _ _ id, fun _ _ => hapart _ _ id⟩
    | asyncAccept v => exact ⟨hapart _ _ id, fun _ _ => hapart _ _ id⟩
    | asyncWriteSome v bufs rs => exact ⟨hapart _ _ id, fun _ _ => ⟨hapart _ _ id, hapart _ _ id⟩⟩
    | asyncReadSome v bufs =>
      exact ⟨hapart _ _ id, fun _ _ => ⟨fun _ => hapart _ _ id, hapart _ _ id, fun _ => hapart _ _ id⟩⟩
    | stateChange u state rs =>
      intro i _
      cases state with
      | connect => trivial
      | writable => exact fun _ _ => ⟨hapart _ _ id, hapart _ _ id, hapart _ _ id⟩
      | eof | destroying => exact hapart _ _ id
    | onRead u buf ecs => exact fun _ _ => hapart _ _ id
    | socket | bind _ | moveConstruct _ | moveAssign _ _ | close _ | sendto _ | incoming _ _ _ | run _ | ran
    | context _ =>
      trivial
  refine h.1.traces_apart (fun _ l hl => .of_apart ?_) (fun hev _ l hl => ⟨?_, fun _ => hev⟩)
    (fun _ _ _ l hl => .of_apart ?_) hen (hstarts.admits_of hsends hclose fun _ _ _ => .of_apart id)
  · cases l <;> first | exact hl.elim | exact id
  · cases l <;> first | exact hl.elim | trivial
  · cases l <;> first | exact hl.elim | exact id

theorem paired_step {w w' : World} {ev : Event} (h : Paired w) (hen : w.Enabled ev) (hs : w.step ev = .ok w') :
    Paired w' := by
  have htr := paired_traces h hen
  rw [hs] at htr
  exact htr.keeps Paired (fun _ _ => paired_moving) h

theorem paired_init : Paired {} := ⟨sound_init, owned_init⟩

/-! ## What the `socket` objects hold -/

/-- The same `socket` objects hold the multiplexer, and nothing has been registered. -/
structure SameHolders (w w' : World) : Prop where
  made : w'.made = w.made
  registered : w'.registeredSockets = w.registeredSockets
  multiplexer : ∀ v, (w'.sockets v).multiplexer = (w.sockets v).multiplexer

theorem SameHolders.refl (w : World) : SameHolders w w := ⟨rfl, rfl, fun _ => rfl⟩

theorem SameHolders.trans {w w' w'' : World} (h : SameHolders w w') (h' : SameHolders w' w'') : SameHolders w w'' :=
  ⟨h'.made.trans h.made, h'.registered.trans h.registered, fun v => (h'.multiplexer v).trans (h.multiplexer v)⟩

/-- Only a call on a `socket` object changes who holds the multiplexer. -/
theorem sameHolders_move {w w' : World} {l : Label} (hl : ¬ l.Object) (hm : Move w l w') : SameHolders w w' := by
  cases hm with
  | @shut i ec _ _ _ =>
    obtain ⟨utp, heq, -⟩ := shutUtp_eq w i ec
    rw [heq]
    exact ⟨rfl, rfl, fun _ => rfl⟩
  | @finish _ i _ hf =>
    obtain ⟨-, c, -, rfl⟩ := finishClose_ok_iff.1 hf
    refine ⟨rfl, rfl, fun v => ?_⟩
    cases ho : (w.impls i).owner with
    | none => rfl
    | some v' =>
      dsimp only [Option.elim_some]
      by_cases hv : v = v'
      · subst hv
        simp
      · rw [Function.update_of_ne hv]
  | socket | bind _ _ | moveConstruct _ | release _ | assign _ _ => exact absurd trivial hl
  | ran =>
    unfold World.ran
    split
    · exact .refl w
    · dsimp only
      split <;> exact ⟨rfl, rfl, fun _ => rfl⟩
  | _ => exact ⟨rfl, rfl, fun _ => rfl⟩

theorem sameHolders_after {ok : World → Label → Prop} (hok : ∀ w l, ok w l → ¬ l.Object) {w w' : World}
    (h : ReflTransGen (Moves ok) w w') : SameHolders w w' := by
  induction h with
  | refl => exact .refl w
  | tail _ hm ih =>
    obtain ⟨l, hl, hm⟩ := hm
    exact ih.trans (sameHolders_move (hok _ _ hl) hm)

theorem sameHolders_step {w w' : World} {ev : Event} (h : Paired w) (hen : w.Enabled ev) (hev : ¬ ev.OnObjects)
    (hs : w.step ev = .ok w') : SameHolders w w' := by
  have htr := paired_traces h hen
  rw [hs] at htr
  exact sameHolders_after (fun _ _ hl ho => hev (hl.2 ho)) htr

/-- `socket::close` takes from its `socket` what it has, if it has a `_socket_impl`, and gives nobody anything. -/
theorem close_holders {w w' : World} {v : Nat} (hw : Sound w) (h : w.close v = .ok w') :
    (w'.made = w.made ∧ w'.registeredSockets = w.registeredSockets) ∧
      (w'.sockets v = {} ∨ w'.sockets v = w.sockets v) ∧
      ∀ v' ≠ v, (w'.sockets v').multiplexer = (w.sockets v').multiplexer ∧
        ∀ i, (w'.sockets v').impl = some i → (w.sockets v').impl = some i := by
  unfold close at h
  split at h
  · cases h
    exact ⟨⟨rfl, rfl⟩, .inr rfl, fun _ _ => ⟨rfl, fun _ hi => hi⟩⟩
  · next i hi =>
    have hcloses : ∃ w₁, ReflTransGen Closes w w₁ ∧ w' = w₁.setSocket v {} := by
      split at h
      · cases h
        exact ⟨w, .refl, rfl⟩
      · obtain ⟨w₁, heq, h⟩ := Except.bind_ok_iff.1 h
        cases h
        have htr := closeWithError_closes (hw.formed.sockets v i hi).1 .operationAborted
        rw [heq] at htr
        exact ⟨w₁, htr, rfl⟩
    obtain ⟨w₁, hcloses, rfl⟩ := hcloses
    have hsame := sameHolders_after (fun _ l hl ho => by cases l <;> first | exact hl.elim | exact ho.elim) hcloses
    refine ⟨⟨hsame.made, hsame.registered⟩, .inl (by simp), fun v' hv => ?_⟩
    rw [setSocket_sockets, Function.update_of_ne hv]
    exact ⟨hsame.multiplexer v', fun j hj => sockets_after hcloses hj⟩

/-- **No null `_socket_impl` or `_owner` is followed**, save by move assignment from a `socket` that has a
`_socket_impl`. -/
theorem step_nullPointer {w : World} {ev : Event} (hw : Paired w) (hen : w.Enabled ev)
    (h : w.step ev = .error .nullPointer) :
    ∃ v v', ev = .moveAssign v v' ∧ v ≠ v' ∧ (w.sockets v').impl ≠ none := by
  have hfaults : ∀ ev, w.Enabled ev → w.step ev = .error .nullPointer → ∃ v v', ev = .moveAssign v v' := by
    intro ev hen h
    have htr := paired_traces hw hen
    rw [h] at htr
    obtain ⟨w', -, v, v', rfl, -⟩ := htr.faults Paired (fun _ _ => paired_moving) hw
    exact ⟨v, v', rfl⟩
  obtain ⟨v, v', rfl⟩ := hfaults ev hen h
  refine ⟨v, v', rfl, ?_⟩
  rcases Except.bind_error_iff.1 h with h | ⟨w₁, hclose, h⟩
  · obtain ⟨_, _, hev⟩ := hfaults (.close v) hen.1 h
    cases hev
  · dsimp only at h
    split at h
    · next i hi =>
      have hne : v ≠ v' := fun heq => by
        rw [← heq, close_impl hclose] at hi
        cases hi
      refine ⟨hne, ?_⟩
      rw [((close_holders hw.1 hclose).2.2 v' (Ne.symm hne)).2 i hi]
      simp
    · cases h

end World

end AsioUtp
