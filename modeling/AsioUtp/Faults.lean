/-
When an event faults.

In the runs that start no connect, accept or write on a closed socket, most
events come to their end whatever libutp answers on the way. `Relies` lists
what is left, event by event: what libutp and the user have to keep to that
the library does not see to itself. `step_ok_iff` says that the list is
exact: an event faults if and only if what it relies on is not so. Here the
user may call anything on a `socket` that is there (`Possible`), also what the
code asserts is not called; but the `on_send_to` slots that a send calls leave
the sockets alone, as in all of `World`.
-/
import AsioUtp.Excess
import AsioUtp.Closed

namespace AsioUtp

namespace World

open Machine Relation

/-- What the runs keep that start no connect, accept or write on a closed socket. -/
structure Safe (w : World) : Prop where
  regular : Regular w
  reading : Reading w
  idle : ClosedIdle w
  ctx : Reachable Context.Enabled Context.step {} w.ctx

theorem reachable_safe {w : World} (h : Reachable (fun w ev => w.Enabled ev ∧ w.StartsOpen ev) step {} w) : Safe w := by
  have hidle : Sound w ∧ ClosedIdle w := by
    refine h.invariant (fun w => Sound w ∧ ClosedIdle w) ?_ ⟨sound_init, fun _ _ _ => rfl⟩
    rintro w ev w' ⟨hw, hidle⟩ ⟨hen, hopen⟩ hs
    exact ⟨sound_step hw hen hs, closedIdle_step hw hidle hen hopen hs⟩
  obtain ⟨evs, hrun⟩ := h
  have hrun : Run Enabled step {} evs w := hrun.mono fun _ _ => And.left
  exact ⟨reachable_regular ⟨_, hrun⟩, reachable_reading ⟨_, hrun⟩, hidle.2, (run_exceeds hrun).ctx.reachable⟩

theorem Safe.closable {w : World} (h : Safe w) : Closable w := ⟨h.regular.sound, h.regular.settled, h.idle⟩

/-! ## Calls the code asserts are not made -/

/-- What can happen, the calls among it that the slots are not ready for. -/
def Possible (w : World) : Event → Prop
  | .asyncConnect v _ _ _ | .asyncAccept v | .asyncWriteSome v _ _ | .asyncReadSome v _ => v < w.made
  | ev => w.Enabled ev

instance (w : World) : (ev : Event) → Decidable (w.Possible ev)
  | .asyncConnect v _ _ _ | .asyncAccept v | .asyncWriteSome v _ _ | .asyncReadSome v _ =>
    inferInstanceAs (Decidable (v < w.made))
  | .socket => inferInstanceAs (Decidable (w.Enabled .socket))
  | .bind v => inferInstanceAs (Decidable (w.Enabled (.bind v)))
  | .moveConstruct v => inferInstanceAs (Decidable (w.Enabled (.moveConstruct v)))
  | .moveAssign v v' => inferInstanceAs (Decidable (w.Enabled (.moveAssign v v')))
  | .close v => inferInstanceAs (Decidable (w.Enabled (.close v)))
  | .sendto ec => inferInstanceAs (Decidable (w.Enabled (.sendto ec)))
  | .stateChange u state rs => inferInstanceAs (Decidable (w.Enabled (.stateChange u state rs)))
  | .onRead u buf ecs => inferInstanceAs (Decidable (w.Enabled (.onRead u buf ecs)))
  | .incoming ep ecs onClose => inferInstanceAs (Decidable (w.Enabled (.incoming ep ecs onClose)))
  | .run c => inferInstanceAs (Decidable (w.Enabled (.run c)))
  | .ran => inferInstanceAs (Decidable (w.Enabled .ran))
  | .context ev => inferInstanceAs (Decidable (w.Enabled (.context ev)))

/-- A call that comes to its end found the slots ready. -/
theorem Possible.enabled {w w' : World} {ev : Event} (h : w.Possible ev) (hs : w.step ev = .ok w') : w.Enabled ev := by
  cases ev with
  | asyncConnect v ep ecs onClose =>
    refine ⟨h, fun i hi => ?_⟩
    have hi : (w.sockets v).impl = some i := hi
    simp only [step, asyncConnect, numberOp, hi] at hs
    obtain ⟨_, hnone, -⟩ := Except.bind_ok_iff.1 hs
    exact Except.require_ok_iff.1 hnone
  | asyncAccept v =>
    refine ⟨h, fun i hi => ?_⟩
    have hi : (w.sockets v).impl = some i := hi
    simp only [step, asyncAccept, numberOp, hi] at hs
    obtain ⟨_, hnone, hs⟩ := Except.bind_ok_iff.1 hs
    obtain ⟨w₁, hadd, -⟩ := Except.bind_ok_iff.1 hs
    obtain ⟨_, hfree, -⟩ := Except.bind_ok_iff.1 hadd
    exact ⟨not_not.2 (Except.require_ok_iff.1 hnone), Except.require_ok_iff.1 hfree⟩
  | asyncWriteSome v bufs rs =>
    refine ⟨h, fun i hi => ?_⟩
    rw [step_asyncWriteSome hi] at hs
    obtain ⟨_, hnone, -⟩ := Except.bind_ok_iff.1 hs
    exact not_not.2 (by simpa using Except.require_ok_iff.1 hnone)
  | asyncReadSome v bufs =>
    refine ⟨h, fun i hi => ?_⟩
    have hi : (w.sockets v).impl = some i := hi
    simp only [step, asyncReadSome, numberOp, hi] at hs
    obtain ⟨_, hnone, -⟩ := Except.bind_ok_iff.1 hs
    exact not_not.2 (by simpa using Except.require_ok_iff.1 hnone)
  | _ => exact h

/-! ## The calls that come to their end -/

theorem close_ok {w : World} (hw : Closable w) (v : Nat) : ∃ w', w.close v = .ok w' := by
  unfold close
  split
  · exact ⟨_, rfl⟩
  · next i hi =>
    split
    · exact ⟨_, rfl⟩
    · obtain ⟨w', hclose, -⟩ := ends_closeWithError.closes w i .operationAborted hw
        (hw.sound.formed.sockets v i hi).1 trivial
      exact ⟨_, by rw [hclose]; rfl⟩

theorem doConnect_eq {w : World} {i : Nat} {ep : Endpoint} {x : Handler} {ecs onClose : List ErrorCode} {c : Context}
    (hnone : (w.impls i).utpSocket = none) (hctx : w.ctx.utpCtx = true) (hinc : w.ctx.incrementOutstandingOps = .ok c) :
    w.doConnect i ep x ecs onClose = (w.connecting c i ep x onClose).sends ecs := by
  have hctx : c.utpCtx = true := (Context.increment_alive hinc).2.1.trans hctx
  simp only [doConnect, setupOp, hinc, utpSetUserdata_new, Except.require, hnone, if_true, Except.ok_bind, pure_bind]
  simp [connecting, setImpl, setUtp, hctx]

theorem doConnect_ends {w : World} {i : Nat} (ep : Endpoint) (x : Handler) (ecs onClose : List ErrorCode)
    (hw : Regular w) (hidle : ClosedIdle w) (hi : i ∈ w.registeredSockets) (hopen : (w.impls i).closed = false)
    (hnone : (w.impls i).utpSocket = none) (hctx : w.ctx.utpCtx = true) :
    ∃ w', w.doConnect i ep x ecs onClose = .ok w' := by
  obtain ⟨t, m, hinc⟩ := Context.increment_spec w.ctx
  rw [doConnect_eq hnone hctx hinc]
  have hm : Move w (.connect i x) (w.connecting _ i ep x onClose) := .connect hi hnone hinc
  have hidle' := closedIdle_move (l := .connect i x) hidle hopen hm
  obtain ⟨w', hsends, -⟩ := sends_ok ((hw.move hm).closable fun j _ => hidle' j) ecs
  exact ⟨w', hsends⟩

theorem doAccept_ends {w : World} {i : Nat} (x : Handler) (hnone : (w.impls i).handlers .accept = none)
    (hfree : i ∉ w.acceptingSockets) : ∃ w', w.doAccept i x = .ok w' := by
  simp only [doAccept, addAcceptingSocket, Except.require, hnone, hfree, not_false_eq_true, if_true, Except.ok_bind,
    pure_bind]
  exact setupOp_ok _ _ _ _

/-- Closing a socket that has no `utp_socket`. -/
theorem closeWithError_alone {w : World} {i : Nat} (ec : ErrorCode) (hutp : (w.impls i).utpSocket = none)
    (hidle : (w.impls i).closed = true → ∀ slot, (w.impls i).handlers slot = none) :
    ∃ w', w.closeWithError i ec = .ok w' := by
  cases hc : (w.impls i).closed with
  | false => exact ⟨_, (closeWithError_simple ec hc (.inl hutp)).1⟩
  | true =>
    rcases closeWithErrorDepth_closed (w.registeredSockets.length + 1) hc ec with ⟨-, heq⟩ | ⟨slot, hslot, -⟩
    · exact ⟨w, heq⟩
    · exact absurd (hidle hc slot) hslot

theorem destroying_ends {w : World} {u : Nat} (rs : List WriteReply) (hw : Closable w)
    (halive : (w.utp u).alive = true) : ∃ w', w.stateChange u .destroying rs = .ok w' := by
  simp only [stateChange, callbackOnStateChange]
  cases hu : (w.utp u).userdata with
  | none => exact ⟨_, rfl⟩
  | some i =>
    have hatt : (w.impls i).utpSocket ≠ none := by simp [hw.sound.handles.back u i halive hu]
    simp only [onDestroy, Except.require, hatt, ne_eq, not_false_eq_true, if_true, Except.ok_bind]
    obtain ⟨w', hclose⟩ := closeWithError_alone (w := w.setImpl i { w.impls i with utpSocket := none }) (i := i)
      .connectionAborted (by simp [setImpl]) fun hc slot => by
        simp only [setImpl, Function.update_self] at hc ⊢
        exact hw.idle i hc slot
    rw [hclose, Except.ok_bind]
    split <;> exact ⟨_, rfl⟩

/-! ## Writing and receiving -/

/-- A write on `i` does not end with nothing to post: no send fails inside it, or libutp does not take it whole. -/
def Completes (w : World) (i : Nat) (bufs : List (List UInt8)) (rs : List WriteReply) : Prop :=
  (w.impls i).utpSocket = none ∨ ¬ w.CallsFail (writeCalls bufs rs).1 ∨ Unfinished (writeCalls bufs rs).1

theorem doWrite_ends_iff {w : World} {i : Nat} (x : Handler) (rs : List WriteReply) (hw : Regular w)
    (hidle : ClosedIdle w) (hi : i ∈ w.registeredSockets) (hopen : (w.impls i).closed = false)
    (hnone : (w.impls i).handlers .send = none) :
    (∃ w', w.doWrite i x rs = .ok w') ↔ w.Completes i (w.impls i).txBuffers rs := by
  constructor
  · rintro ⟨w', h⟩
    cases hu : (w.impls i).utpSocket with
    | none => exact .inl hu
    | some u =>
      obtain ⟨w₁, hsetup⟩ := setupOp_ok w i .send x
      obtain ⟨-, halive, hreg, himpl⟩ := setupOp_send hw.sound hi hnone hsetup
      rw [doWrite_eq hnone hu hsetup, Except.bind_ok_iff] at h
      obtain ⟨w₂, hcalls, hend⟩ := h
      by_cases hf : w.CallsFail (writeCalls (w.impls i).txBuffers rs).1
      · have hstill := (doWrite_failed hi hreg himpl hcalls ((callsFail_alive halive _).2 hf) hend).1
        exact .inr (.inr ((writeCalls_unfinished _ rs).1 hstill))
      · exact .inr (.inl hf)
  · intro h
    obtain ⟨w', hok, -⟩ := (doWrite_iff x hw hi hnone).2
      (h.imp_right (.imp_right fun hleft => ⟨hleft, hopen, fun j _ => hidle j⟩))
    exact ⟨w', hok⟩

theorem onReceive_ends_iff {w : World} {i u : Nat} (buf : List UInt8) (ecs : List ErrorCode) (hw : Sound w)
    (hr : Reading w) (hi : i ∈ w.registeredSockets) (hu : (w.impls i).utpSocket = some u) :
    (∃ w', w.onReceive i buf ecs = .ok w') ↔ (w.Pending i .recv → w.ReceiveSafe i buf ecs) := by
  cases hx : (w.impls i).handlers .recv with
  | none =>
    refine iff_of_true ⟨_, by rw [onReceive, hx]; rfl⟩ fun hp => absurd hx hp
  | some x =>
    have hp : w.Pending i .recv := by simp [Pending, hx]
    constructor
    · rintro ⟨w', h⟩ -
      by_contra hsafe
      obtain ⟨hf, hlt⟩ := not_or.1 hsafe
      obtain ⟨total, data, heq⟩ := onReceive_pending buf ecs hw hr hu hx
      rw [heq, if_neg hlt, Except.bind_ok_iff] at h
      -- The sends have closed the socket, and its slot is empty.
      obtain ⟨w₁, hsends, hpost⟩ := h
      have hshut := (sends_shuts hsends).2 (not_not.1 hf) i hi
      obtain ⟨y, hy, -⟩ := postOp_ok hpost
      rw [hshut.2 .recv] at hy
      cases hy
    · intro h
      obtain ⟨w', hok, -⟩ := (onReceive_iff hw hr hi hu hx).2 (h hp)
      exact ⟨w', hok⟩

/-! ## Connections that arrive -/

theorem onAccept_ends_iff {w : World} {i u : Nat} (halive : (w.utp u).alive = true) :
    (∃ w', w.onAccept i u = .ok w') ↔ (w.impls i).utpSocket = none ∧ w.Pending i .accept := by
  constructor
  · rintro ⟨w', h⟩
    simp only [onAccept, Except.bind_ok_iff, Except.require_ok_iff] at h
    obtain ⟨-, hnone, -, hp, -⟩ := h
    exact ⟨hnone, hp⟩
  · rintro ⟨hnone, hp⟩
    obtain ⟨x, hx⟩ := Option.ne_none_iff_exists'.1 hp
    simp only [onAccept, Except.require, hnone, hp, if_true, Except.ok_bind, utpSetUserdata_alive halive]
    simp only [postOp, setImpl, setUtp, Function.update_self, hx]
    exact ⟨_, rfl⟩

/-- A connection that arrives finds the first socket that accepts waiting for it, and no send closes that on the way. -/
def HandsOver (w : World) (ecs : List ErrorCode) : Prop :=
  ∀ i ∈ w.acceptingSockets.head?, ¬ w.Fails ecs ∧ (w.impls i).utpSocket = none ∧ w.Pending i .accept

theorem incoming_ends_iff {w : World} (ep : Endpoint) (ecs onClose : List ErrorCode) (hw : Regular w)
    (hidle : ClosedIdle w) : (∃ w', w.incoming ep ecs onClose = .ok w') ↔ w.HandsOver ecs := by
  cases hacc : w.acceptingSockets with
  | nil => exact iff_of_true ⟨w, by simp [incoming, callbackOnFirewall, hacc]⟩ (by simp [HandsOver, hacc])
  | cons i rest =>
    have hm : Move w .create (w.arriving ep onClose) := .create
    have hidle' := closedIdle_move (l := .create) hidle trivial hm
    obtain ⟨w₁, hsends, -, -⟩ := sends_ok ((hw.move hm).closable fun j _ => hidle' j) ecs
    have hacc₁ : w₁.acceptingSockets = i :: rest := by
      have htr := sends_closes (w.arriving ep onClose) ecs
      rw [hsends] at htr
      exact (htr.keeps (fun s => s.acceptingSockets = w.acceptingSockets) (fun s s' hs hm => hm.accepting.trans hs)
        rfl).trans hacc
    have heq : w.incoming ep ecs onClose = ({ w₁ with acceptingSockets := rest } : World).onAccept i w.created := by
      have hfirst : w.incoming ep ecs onClose =
          ((w.arriving ep onClose).sends ecs >>= fun w' => w'.callbackOnAccept w.created) := by
        rw [incoming, if_neg (by simp [callbackOnFirewall, hacc])]
        rfl
      rw [hfirst, hsends, Except.ok_bind, callbackOnAccept, hacc₁]
    have hi : i ∈ (w.arriving ep onClose).registeredSockets := hw.sound.formed.accepting i (by simp [hacc])
    have hfails : (w.arriving ep onClose).Fails ecs ↔ w.Fails ecs := Iff.rfl
    have hfree : ∀ j, ((w.arriving ep onClose).impls j).utpSocket ≠ some w.created := fun j hj => by
      have := (hw.sound.handles.attached j _ hj).1
      omega
    have halive : (({ w₁ with acceptingSockets := rest } : World).utp w.created).alive = true := by
      show (w₁.utp w.created).alive = true
      rw [(sends_free hsends hfree).1]
      simp [arriving]
    rw [heq, onAccept_ends_iff halive]
    simp only [HandsOver, hacc, List.head?_cons, Option.mem_def, Option.some.injEq, forall_eq']
    by_cases hf : w.Fails ecs
    · -- Every socket is closed by then, and its slot empty.
      refine iff_of_false (fun h => ?_) fun h => h.1 hf
      exact h.2 (((sends_shuts hsends).2 (hfails.2 hf) i hi).2 .accept)
    · rw [sends_same (mt hfails.1 hf)] at hsends
      cases hsends
      simp only [hf, not_false_eq_true, true_and]
      exact Iff.rfl

/-! ## Every event -/

/-- What an event relies on beside what the library sees to itself. Move assignment: that the `socket` it takes from
has no `_socket_impl`, once the one assigned to is closed. A call: that no other of its kind waits, and for a connect
that there is no `utp_socket` yet. A write, started or resumed, and data for a read that waits: that no send closes the
socket before the operation's handler is posted. `UTP_STATE_CONNECT`: that a connect waits. The end of the stream: that
it comes once. Data: that the `utp_socket` is a socket's. -/
def Relies (w : World) : Event → Prop
  | .moveAssign v v' => ∀ w₁, w.close v = .ok w₁ → (w₁.sockets v').impl = none
  | .asyncConnect v _ _ _ => ∀ i ∈ (w.sockets v).impl, (w.impls i).utpSocket = none
  | .asyncAccept v => ∀ i ∈ (w.sockets v).impl, ¬ w.Pending i .accept ∧ i ∉ w.acceptingSockets
  | .asyncReadSome v _ => ∀ i ∈ (w.sockets v).impl, ¬ w.Pending i .recv
  | .asyncWriteSome v bufs rs => ∀ i ∈ (w.sockets v).impl, ¬ w.Pending i .send ∧ w.Completes i bufs rs
  | .stateChange u .connect _ => ∀ i ∈ (w.utp u).userdata, w.Pending i .connect
  | .stateChange u .writable rs =>
    ∀ i ∈ (w.utp u).userdata, w.Pending i .send → w.Completes i (w.impls i).txBuffers rs
  | .stateChange u .eof _ => ∀ i ∈ (w.utp u).userdata, (w.impls i).gotEof = false
  | .onRead u buf ecs => ∃ i, (w.utp u).userdata = some i ∧ (w.Pending i .recv → w.ReceiveSafe i buf ecs)
  | .incoming _ ecs _ => w.HandsOver ecs
  | _ => True

theorem moveAssign_ends_iff {w : World} {v v' : Nat} (hw : Closable w) :
    (∃ w', w.moveAssign v v' = .ok w') ↔ w.Relies (.moveAssign v v') := by
  obtain ⟨w₁, hclose⟩ := close_ok hw v
  simp only [moveAssign, Relies, hclose, Except.ok_bind, Except.ok.injEq, forall_eq']
  cases (w₁.sockets v').impl with
  | none => exact iff_of_true ⟨_, rfl⟩ rfl
  | some i => exact iff_of_false (by rintro ⟨w', h⟩; cases h) (by simp)

theorem writable_ends_iff {w : World} {u i : Nat} {rs : List WriteReply} (hw : Safe w)
    (hu : (w.utp u).userdata = some i) :
    (∃ w', w.step (.stateChange u .writable rs) = .ok w') ↔
      (w.Pending i .send → w.Completes i (w.impls i).txBuffers rs) := by
  rw [step_writable hu, onWritable]
  cases hx : (w.impls i).handlers .send with
  | none => exact iff_of_true ⟨_, rfl⟩ fun hp => absurd hx hp
  | some x =>
    have hp : w.Pending i .send := by simp [Pending, hx]
    have hopen : (w.impls i).closed = false := by
      by_contra hc
      exact hp (hw.idle i (by simpa using hc) .send)
    have hm : Move w (.take i) (w.setImpl i ((w.impls i).setHandler .send none)) := .take hx
    have hiff := doWrite_ends_iff x rs (hw.regular.move hm) (closedIdle_move (l := .take i) hw.idle trivial hm)
      (hw.regular.sound.formed.userdata u i hu) (by simpa [SocketImpl.setHandler] using hopen) (by simp)
    have hcompletes : (w.setImpl i ((w.impls i).setHandler .send none)).Completes i (w.impls i).txBuffers rs ↔
        w.Completes i (w.impls i).txBuffers rs := by
      simp only [Completes, setImpl_impls, Function.update_self]
      exact Iff.rfl
    rw [← hcompletes]
    rw [setImpl_impls, Function.update_self] at hiff
    exact hiff.trans ⟨fun h _ => h, fun h => h hp⟩

theorem asyncWriteSome_ends_iff {w : World} {v : Nat} {bufs : List (List UInt8)} {rs : List WriteReply} (hw : Safe w)
    (hen : w.Enabled (.asyncWriteSome v bufs rs)) (hopen : w.StartsOpen (.asyncWriteSome v bufs rs)) :
    (∃ w', w.step (.asyncWriteSome v bufs rs) = .ok w') ↔ ∀ i ∈ (w.sockets v).impl, w.Completes i bufs rs := by
  cases hi : (w.sockets v).impl with
  | none => exact iff_of_true ⟨_, by simp only [step, asyncWriteSome, numberOp, hi]; rfl⟩ (by simp)
  | some i =>
    have hm : Move w.numberOp (.data i) (w.numberOp.setImpl i { w.impls i with txBuffers := bufs }) :=
      .data (.tx _ _ _)
    have hidle := closedIdle_move (l := .data i) (closedIdle_move (l := .number) hw.idle trivial .number) trivial hm
    have hiff := doWrite_ends_iff w.nextHandler rs ((hw.regular.move .number).move hm) hidle
      (hw.regular.sound.formed.sockets v i hi).1 (by simpa using hopen i hi) (by simpa using not_not.1 (hen.2 i hi))
    have hcompletes : (w.numberOp.setImpl i { w.impls i with txBuffers := bufs }).Completes i bufs rs ↔
        w.Completes i bufs rs := by
      simp only [Completes, setImpl_impls, Function.update_self]
      exact Iff.rfl
    rw [step_asyncWriteSome hi]
    simp only [Option.mem_def, Option.some.injEq, forall_eq']
    rw [← hcompletes]
    rw [setImpl_impls, Function.update_self] at hiff
    exact hiff

theorem asyncConnect_ends {w : World} {v : Nat} {ep : Endpoint} {ecs onClose : List ErrorCode} (hw : Safe w)
    (hen : w.Enabled (.asyncConnect v ep ecs onClose)) (hopen : w.StartsOpen (.asyncConnect v ep ecs onClose)) :
    ∃ w', w.step (.asyncConnect v ep ecs onClose) = .ok w' := by
  cases hi : (w.sockets v).impl with
  | none => exact ⟨_, by simp only [step, asyncConnect, numberOp, hi]; rfl⟩
  | some i =>
    have hformed := hw.regular.sound.formed
    obtain ⟨hreg, -, -, halive⟩ := hformed.sockets v i hi
    have hstep : w.step (.asyncConnect v ep ecs onClose) = w.numberOp.doConnect i
        { ep with address := connectAddress ep.address } w.nextHandler ecs onClose := by
      simp only [step, asyncConnect, numberOp, hi]
    rw [hstep]
    exact doConnect_ends _ _ _ _ (hw.regular.move .number) (closedIdle_move (l := .number) hw.idle trivial .number)
      hreg (hopen i hi) (hen.2 i hi) (hformed.utpCtx halive)

theorem asyncAccept_ends {w : World} {v : Nat} (hen : w.Enabled (.asyncAccept v)) :
    ∃ w', w.step (.asyncAccept v) = .ok w' := by
  cases hi : (w.sockets v).impl with
  | none => exact ⟨_, by simp only [step, asyncAccept, numberOp, hi]; rfl⟩
  | some i =>
    have hstep : w.step (.asyncAccept v) = w.numberOp.doAccept i w.nextHandler := by
      simp only [step, asyncAccept, numberOp, hi]
    rw [hstep]
    exact doAccept_ends _ (not_not.1 (hen.2 i hi).1) (hen.2 i hi).2

theorem asyncReadSome_ends {w : World} {v : Nat} {bufs : List (List UInt8)}
    (hen : w.Enabled (.asyncReadSome v bufs)) : ∃ w', w.step (.asyncReadSome v bufs) = .ok w' := by
  cases hi : (w.sockets v).impl with
  | none => exact ⟨_, by simp only [step, asyncReadSome, numberOp, hi]; rfl⟩
  | some i =>
    have hidle : (w.impls i).handlers .recv = none := not_not.1 (hen.2 i hi)
    have hstep : w.step (.asyncReadSome v bufs) =
        (w.numberOp.setImpl i { w.impls i with rxBuffers := bufs }).doRead i w.nextHandler := by
      simp only [step, asyncReadSome, numberOp, hi]
    obtain ⟨w', -, hok, -⟩ := doRead_serves (i := i) (w := w.numberOp.setImpl i { w.impls i with rxBuffers := bufs })
      (by simpa using hidle) w.nextHandler
    exact ⟨w', hstep.trans hok⟩

theorem stateChange_ends_iff {w : World} {u : Nat} {state : StateChange} {rs : List WriteReply} (hw : Safe w)
    (hen : w.Enabled (.stateChange u state rs)) :
    (∃ w', w.step (.stateChange u state rs) = .ok w') ↔ w.Relies (.stateChange u state rs) := by
  cases hu : (w.utp u).userdata with
  | none =>
    refine iff_of_true ?_ (by cases state <;> simp [Relies, hu])
    simp only [step, stateChange, callbackOnStateChange, hu, Except.ok_bind]
    exact ⟨_, rfl⟩
  | some i =>
    cases state with
    | connect =>
      simp only [step, stateChange, callbackOnStateChange, hu, onConnect, Relies, Option.mem_def, Option.some.injEq,
        forall_eq']
      cases hx : (w.impls i).handlers .connect with
      | none => exact iff_of_false (by rintro ⟨w', h⟩; simp [postOp, hx] at h) (by simp [Pending, hx])
      | some x => exact iff_of_true ⟨_, by simp only [postOp, hx]; rfl⟩ (by simp [Pending, hx])
    | writable =>
      simp only [Relies, hu, Option.mem_def, Option.some.injEq, forall_eq']
      exact writable_ends_iff hw hu
    | eof =>
      simp only [step, stateChange, callbackOnStateChange, hu, onEof, Relies, Option.mem_def, Option.some.injEq,
        forall_eq']
      cases heof : (w.impls i).gotEof with
      | false => exact iff_of_true ⟨_, rfl⟩ rfl
      | true => exact iff_of_false (by rintro ⟨w', h⟩; cases h) (by simp)
    | destroying => exact iff_of_true (destroying_ends rs hw.closable hen.2) trivial

theorem onRead_ends_iff {w : World} {u : Nat} {buf : List UInt8} {ecs : List ErrorCode} (hw : Safe w)
    (hen : w.Enabled (.onRead u buf ecs)) :
    (∃ w', w.step (.onRead u buf ecs) = .ok w') ↔ w.Relies (.onRead u buf ecs) := by
  have hsound := hw.regular.sound
  cases hu : (w.utp u).userdata with
  | none =>
    refine iff_of_false ?_ (by simp [Relies, hu])
    rintro ⟨w', h⟩
    simp [step, callbackOnRead, hu] at h
  | some i =>
    simp only [step, callbackOnRead, hu, Relies, Option.some.injEq, exists_eq_left']
    exact onReceive_ends_iff buf ecs hsound hw.reading (hsound.formed.userdata u i hu)
      (hsound.handles.back u i hen.2 hu)

end World

end AsioUtp
