/-
Sockets whose close is outstanding.

`close_with_error` sets `_decrement_close` after `utp_close`, and `on_destroy`
clears it. In between libutp has the `utp_socket` still, and has been told to
close it: `Lingering` says that whoever has the flag set has such a
`utp_socket`. The flag is set late, when the sends inside `utp_close` have
been made, and these may close other sockets; none of them takes the
`utp_socket` away.
-/
import AsioUtp.Inventory

namespace AsioUtp

namespace World

open Machine Relation

/-- The socket has a `utp_socket` that `utp_close` has been called on. -/
def Lingers (w : World) (i : Nat) : Prop := ∃ u, (w.impls i).utpSocket = some u ∧ (w.utp u).closes ≠ 0

def Lingering (w : World) : Prop := ∀ i, (w.impls i).decrementClose = true → w.Lingers i

/-- The end of `close_with_error` is reached with such a `utp_socket`; libutp destroys none meanwhile. -/
def LingerSound (w : World) : Label → Prop
  | .finish i => w.Lingers i
  | .destroy _ _ => False
  | _ => True

/-- A change that sets no flag, and takes nothing from whoever has it set. -/
theorem Lingering.of {w w' : World} (h : Lingering w)
    (hkeep : ∀ j, (w'.impls j).decrementClose = true → (w.impls j).decrementClose = true ∧
      ∀ u, (w.impls j).utpSocket = some u → (w'.impls j).utpSocket = some u ∧ (w.utp u).closes ≤ (w'.utp u).closes) :
    Lingering w' := by
  intro j hj
  obtain ⟨hd, hu⟩ := hkeep j hj
  obtain ⟨u, hatt, hne⟩ := h j hd
  obtain ⟨hatt', hle⟩ := hu u hatt
  exact ⟨u, hatt', by omega⟩

/-- One impl changes, and not in what matters here. -/
theorem Lingering.setImpl {w w' : World} (h : Lingering w) {i : Nat} {s : SocketImpl}
    (himpl : w'.impls = Function.update w.impls i s) (hutp : ∀ u, (w.utp u).closes ≤ (w'.utp u).closes)
    (hd : s.decrementClose = (w.impls i).decrementClose) (hatt : s.utpSocket = (w.impls i).utpSocket) :
    Lingering w' := by
  refine h.of fun j hj => ?_
  rw [himpl] at hj ⊢
  rw [update_field SocketImpl.decrementClose hd j] at hj
  rw [update_field SocketImpl.utpSocket hatt j]
  exact ⟨hj, fun u hu => ⟨hu, hutp u⟩⟩

/-- A socket gets a `utp_socket`: it had none, and so has no flag set. -/
theorem Lingering.attach {w w' : World} (h : Lingering w) (hw : Handles w) {i : Nat} {s : SocketImpl}
    (himpl : w'.impls = Function.update w.impls i s) (hutp : ∀ u < w.created, (w.utp u).closes ≤ (w'.utp u).closes)
    (hnone : (w.impls i).utpSocket = none) (hd : s.decrementClose = (w.impls i).decrementClose) : Lingering w' := by
  refine h.of fun j hj => ?_
  rw [himpl, update_field SocketImpl.decrementClose hd j] at hj
  have hji : j ≠ i := by
    rintro rfl
    obtain ⟨u, hu, -⟩ := h j hj
    rw [hnone] at hu
    cases hu
  rw [himpl, Function.update_of_ne hji]
  exact ⟨hj, fun u hu => ⟨hu, hutp u (hw.attached j u hu).1⟩⟩

theorem closes_setUtp {w : World} {u : Nat} {x : UtpSocket} (hx : (w.utp u).closes ≤ x.closes) (u' : Nat) :
    (w.utp u').closes ≤ (Function.update w.utp u x u').closes := by
  by_cases hu : u' = u
  · subst hu
    rwa [Function.update_self]
  · rw [Function.update_of_ne hu]

theorem closes_shut (w : World) (i : Nat) (ec : ErrorCode) (u : Nat) :
    (w.utp u).closes ≤ ((w.shutUtp i ec).utp u).closes := by
  obtain ⟨utp, heq, hutp⟩ := shutUtp_eq w i ec
  rw [heq]
  rcases hutp u with h | ⟨-, h⟩ <;> simp [h]

theorem lingering_move {w w' : World} {l : Label} (hw : Sound w) (h : Lingering w) (hl : LingerSound w l)
    (hm : Move w l w') : Lingering w' := by
  cases hm with
  | setup | waiting | take | post | eof => exact h.setImpl rfl (fun _ => le_rfl) rfl rfl
  | data hs | received hs => exact h.setImpl rfl (fun _ => le_rfl) hs.decrementClose hs.utpSocket
  | connect _ hnone _ =>
    refine h.attach hw.handles rfl (fun u hu => ?_) hnone rfl
    have hne : u ≠ w.created := by omega
    simp [setImpl, setUtp, hne]
  | accept _ hnone => exact h.attach hw.handles rfl (fun u _ => closes_setUtp (by exact le_rfl) u) hnone rfl
  | @shut i ec _ _ _ =>
    have hcloses := closes_shut w i ec
    obtain ⟨utp, heq, -⟩ := shutUtp_eq w i ec
    rw [heq] at hcloses ⊢
    exact h.setImpl rfl hcloses rfl rfl
  | @finish _ i _ hf =>
    obtain ⟨-, c, -, rfl⟩ := finishClose_ok_iff.1 hf
    intro j hj
    have hutp : (Function.update w.impls i { w.impls i with owner := none, decrementClose := true } j).utpSocket =
        (w.impls j).utpSocket := update_field SocketImpl.utpSocket (by rfl) j
    have hlingers : w.Lingers j := by
      by_cases hji : j = i
      · subst hji
        exact hl
      · simp only [Function.update_of_ne hji] at hj
        exact h j hj
    obtain ⟨u, hu, hne⟩ := hlingers
    exact ⟨u, hutp.trans hu, hne⟩
  | destroy => exact hl.elim
  | @decrement i _ =>
    refine h.of fun j hj => ?_
    simp only [World.setImpl] at hj ⊢
    have hji : j ≠ i := by
      rintro rfl
      simp at hj
    rw [Function.update_of_ne hji] at hj ⊢
    exact ⟨hj, fun u hu => ⟨hu, le_rfl⟩⟩
  | wrote | die => exact h.of fun j hj => ⟨hj, fun u hu => ⟨hu, closes_setUtp (by exact le_rfl) u⟩⟩
  | create =>
    refine h.of fun j hj => ⟨hj, fun u hu => ⟨hu, ?_⟩⟩
    have hne : u ≠ w.created := by
      have := (hw.handles.attached j u hu).1
      omega
    simp [setUtp, hne]
  | bind =>
    unfold World.bind
    split
    · exact h
    · refine h.of fun j hj => ?_
      simp only [World.setImpl, setSocket] at hj ⊢
      have hji : j ≠ w.registeredSockets.length := by
        rintro rfl
        simp at hj
      rw [Function.update_of_ne hji] at hj ⊢
      exact ⟨hj, fun u hu => ⟨hu, le_rfl⟩⟩
  | moveConstruct =>
    unfold World.moveConstruct
    dsimp only
    split
    · exact h.setImpl rfl (fun _ => le_rfl) rfl rfl
    · exact h
  | ran =>
    unfold World.ran
    split
    · exact h
    · dsimp only
      split <;> exact h
  | direct | number | socket | release | assign | run | loop => exact h

/-! ## Closing, however deep -/

/-- Closing takes no socket's `utp_socket` away, and does not undo `utp_close`. -/
theorem Lingers.after {w w' : World} {i : Nat} (h : w.Lingers i) (hc : ReflTransGen Closes w w') : w'.Lingers i := by
  induction hc with
  | refl => exact h
  | @tail s s' _ hm ih =>
    obtain ⟨u, hu, hne⟩ := ih
    obtain ⟨l, hl, hm⟩ := hm
    cases hm with
    | @shut j ec _ _ _ =>
      have hle := closes_shut s j ec u
      have hatt : ((s.shutUtp j ec).impls i).utpSocket = (s.impls i).utpSocket := by
        obtain ⟨utp, heq, -⟩ := shutUtp_eq s j ec
        rw [heq]
        exact update_field SocketImpl.utpSocket (by rfl) i
      exact ⟨u, hatt.trans hu, by omega⟩
    | finish _ hf =>
      obtain ⟨-, c, -, rfl⟩ := finishClose_ok_iff.1 hf
      exact ⟨u, (update_field SocketImpl.utpSocket (by rfl) i).trans hu, hne⟩
    | _ => exact hl.elim

theorem lingers_shut {w : World} {i u : Nat} (ec : ErrorCode) (hu : (w.impls i).utpSocket = some u)
    (heof : (w.impls i).gotEof = false) : (w.shutUtp i ec).Lingers i := by
  have heq : w.shutUtp i ec = (w.shut i ec).setUtp u { w.utp u with closes := (w.utp u).closes + 1 } := by
    simp only [shutUtp, hu, heof]
    rfl
  refine ⟨u, ?_, by simp [heq, setUtp]⟩
  rw [heq, shut_eq]
  simpa [setImpl, setUtp] using hu

/-- The moves of closing whose ends are reached with a `utp_socket`. -/
abbrev ClosesLingering : World → World → Prop := Moves fun w l => LingerSound w l ∧ l.Closing

theorem closeWithErrorDepth_lingers (depth : Nat) {w : World} (i : Nat) (ec : ErrorCode)
    (hi : i ∈ w.registeredSockets) : Traces ClosesLingering Raises id w (closeWithErrorDepth depth w i ec) := by
  induction depth generalizing w i ec with
  | zero => exact Traces.fault trivial
  | succ depth ih =>
    cases hc : (w.impls i).closed with
    | true =>
      rcases closeWithErrorDepth_closed depth hc ec with ⟨-, heq⟩ | ⟨slot, hp, heq⟩
      · rw [heq]
        exact Traces.done rfl
      · rw [heq]
        exact Traces.fault (raises_closedSite hc hp)
    | false =>
      by_cases hutp : (w.impls i).utpSocket = none ∨ (w.impls i).gotEof = true
      · rw [(closeWithErrorDepth_simple depth ec hc hutp).1]
        refine Traces.move (g := id) ⟨.shut i ec, ⟨trivial, trivial⟩, .shut hi hc fun u hu heof => ?_⟩
        rcases hutp with h | h
        · simp [h] at hu
        · simp [h] at heof
      · obtain ⟨hne, heof⟩ := not_or.1 hutp
        obtain ⟨u, hu⟩ := Option.ne_none_iff_exists'.1 hne
        refine closeWithErrorDepth_open hi hc ⟨trivial, trivial⟩
          (fun w' hcloses => ⟨(lingers_shut ec hu (by simpa using heof)).after hcloses, trivial⟩) fun u' _ _ => ?_
        refine Traces.mono (R := ClosesLingering) (Moves.mono fun _ _ hl => ⟨hl, hl.2⟩) (fun _ _ h => h) ?_
        refine Traces.foldlM (fun _ => True) (fun _ _ _ _ => trivial) trivial fun s ec' _ _ => ?_
        refine callbackSendtoWith_traces (fun _ => True) (fun _ _ _ _ => trivial) (fun w w' h => ?_)
          (fun w i ec _ hi => ih i ec hi) trivial ec'
        have hcloses : Closes w w' := h.mono fun _ _ hl => hl.2
        exact hcloses.keeps_closed.1

theorem sends_lingers (w : World) (ecs : List ErrorCode) : Traces ClosesLingering Raises id w (w.sends ecs) := by
  refine Traces.foldlM (fun _ => True) (fun _ _ _ _ => trivial) trivial fun s ec _ _ => ?_
  refine callbackSendtoWith_traces (fun _ => True) (fun _ _ _ _ => trivial) (fun w w' h => ?_)
    (fun w i ec _ hi => closeWithErrorDepth_lingers _ i ec hi) trivial ec
  have hcloses : Closes w w' := h.mono fun _ _ hl => hl.2
  exact hcloses.keeps_closed.1

/-! ## Every event -/

/-- libutp destroys a socket: the one it is attached to, if any, has its flag cleared. -/
theorem lingering_destroying {w w' : World} {u : Nat} {rs : List WriteReply} (h : Lingering w)
    (hs : w.stateChange u .destroying rs = .ok w') : Lingering w' := by
  have hutp : ∀ u', (w.utp u').closes ≤ (Function.update w.utp u { w.utp u with alive := false } u').closes :=
    closes_setUtp le_rfl
  simp only [stateChange, callbackOnStateChange, if_true, Except.bind_ok_iff, Except.pure_ok_iff] at hs
  obtain ⟨w₁, hs, rfl⟩ := hs
  split at hs
  · cases hs
    exact h.of fun j hj => ⟨hj, fun u hu => ⟨hu, hutp u⟩⟩
  next i hi =>
  simp only [onDestroy, Except.bind_ok_iff] at hs
  obtain ⟨-, -, w₂, hclose, hs⟩ := hs
  rcases destroy_closes (w := w) (i := i) with ⟨f, heq, -⟩ | ⟨-, heq⟩ <;> rw [heq] at hclose <;> cases hclose
  have hothers : ∀ j ≠ i, w₁.impls j = w.impls j := by
    intro j hji
    split at hs <;> cases hs <;> simp [setImpl, hji]
  have hself : (w₁.impls i).decrementClose = false := by
    split at hs
    · cases hs
      simp [setImpl]
    · next hd =>
      cases hs
      simpa [setImpl] using hd
  have hutp₁ : w₁.utp = w.utp := by
    split at hs <;> cases hs <;> rfl
  refine h.of fun j hj => ?_
  have hji : j ≠ i := by
    rintro rfl
    have hj : (w₁.impls j).decrementClose = true := hj
    rw [hself] at hj
    cases hj
  simp only [setUtp, hothers j hji, hutp₁] at hj ⊢
  exact ⟨hj, fun u' hu' => ⟨hu', hutp u'⟩⟩

theorem lingering_step {w w' : World} {ev : Event} (hw : Sound w) (h : Lingering w) (hen : w.Enabled ev)
    (hs : w.step ev = .ok w') : Lingering w' := by
  by_cases hd : ∃ u rs, ev = .stateChange u .destroying rs
  · obtain ⟨u, rs, rfl⟩ := hd
    exact lingering_destroying h hs
  have hstarts : Starts LingerSound w ev := by
    cases ev with
    | asyncConnect v ep ecs onClose => exact ⟨trivial, fun _ _ => trivial⟩
    | asyncAccept v => exact ⟨trivial, fun _ _ => trivial⟩
    | asyncWriteSome v bufs rs => exact ⟨trivial, fun _ _ => ⟨trivial, trivial⟩⟩
    | asyncReadSome v bufs => exact ⟨trivial, fun _ _ => ⟨fun _ => trivial, trivial, fun _ => trivial⟩⟩
    | stateChange u state rs =>
      intro i _
      cases state with
      | connect | eof => trivial
      | writable => exact fun _ _ => ⟨trivial, trivial, trivial⟩
      | destroying => exact absurd ⟨u, rs, rfl⟩ hd
    | onRead u buf ecs => exact fun _ _ => trivial
    | _ => trivial
  have hsends : ∀ ecs, Sends LingerSound w ecs := fun ecs w' _ => sends_lingers w' ecs
  have hclose : ∀ v i, (w.sockets v).impl = some i → (w.impls i).closed = false →
      Traces (Moves LingerSound) Raises id w (w.closeWithError i .operationAborted) := fun v i hi _ =>
    (closeWithErrorDepth_lingers _ i _ (hw.formed.sockets v i hi).1).mono (Moves.mono fun _ _ => And.left)
      fun _ _ h => h
  have htr : Traces (Moves LingerSound) (RaisesIn ev) id w (w.step ev) :=
    hw.traces (fun _ l hl => by cases l <;> first | exact hl.elim | trivial) hen
      (hstarts.admits_of hsends hclose fun _ _ _ => trivial)
  rw [hs] at htr
  refine (htr.keeps (fun s => Sound s ∧ Lingering s) (fun s s' hs hm => ?_) ⟨hw, h⟩).2
  have hsound := sound_move hs.1 hm
  obtain ⟨l, hl, hm⟩ := hm
  exact ⟨hsound, lingering_move hs.1 hs.2 hl hm⟩

/-- **Whoever has `_decrement_close` set still has its `utp_socket`**, which is alive, and which `utp_close` has been
called on. -/
theorem reachable_lingering {w : World} (h : Reachable Enabled step {} w) {i : Nat}
    (hd : (w.impls i).decrementClose = true) :
    ∃ u < w.created, (w.impls i).utpSocket = some u ∧ (w.utp u).alive = true ∧ (w.utp u).closes = 1 := by
  obtain ⟨hw, hlingering⟩ : Sound w ∧ Lingering w := by
    refine h.invariant (fun w => Sound w ∧ Lingering w) ?_ ⟨sound_init, fun _ hd => by cases hd⟩
    rintro w ev w' ⟨hw, hlingering⟩ hen hs
    exact ⟨sound_step hw hen hs, lingering_step hw hlingering hen hs⟩
  obtain ⟨u, hu, hne⟩ := hlingering i hd
  obtain ⟨hlt, halive, -⟩ := hw.handles.attached i u hu
  have := hw.handles.closes u
  exact ⟨u, hlt, hu, halive, by omega⟩

end World

end AsioUtp
