/-
Which moves each event is made of.

`Permits ev` are the labels of the moves an event can make, and `step_path`
says that an event which comes to its end has made no other. What an event
leaves alone is then a case split over its labels: only a connection that is
made or arrives attaches a `utp_socket`, only a write writes, only a read and
what libutp receives change what is queued.

An operation takes its slot once (`starts_path`), and so does a write that is
resumed (`resumes_path`); the labels say nothing of how often.
-/
import AsioUtp.Causes
import AsioUtp.Writing

namespace AsioUtp

namespace World

open Machine Relation

/-- Moves with labels of `ok` lead from one world to the other. -/
abbrev Path (ok : Label → Prop) : World → World → Prop := ReflTransGen (Moves fun _ l => ok l)

variable {ok ok' : Label → Prop}

theorem Path.mono {w w' : World} (h : Path ok w w') (hok : ∀ l, ok l → ok' l) : Path ok' w w' :=
  ReflTransGen.mono (fun _ _ => Moves.mono (fun _ => hok) _ _) _ _ h

theorem Move.path {w w' : World} {l : Label} (hm : Move w l w') (hl : ok l) : Path ok w w' := .single ⟨l, hl, hm⟩

theorem path_of_closes {w w' : World} (hok : ∀ l, l.Closing → ok l) (h : ReflTransGen Closes w w') : Path ok w w' :=
  ReflTransGen.mono (fun _ _ => Moves.mono (fun _ => hok) _ _) _ _ h

theorem sends_path {w w' : World} {ecs : List ErrorCode} (hok : ∀ l, l.Closing → ok l) (h : w.sends ecs = .ok w') :
    Path ok w w' := by
  have htr := sends_closes w ecs
  rw [h] at htr
  exact path_of_closes hok htr

theorem Path.regular {w w' : World} (h : Path ok w w') (hw : Regular w) : Regular w' := by
  induction h with
  | refl => exact hw
  | tail _ hm ih =>
    obtain ⟨l, -, hm⟩ := hm
    exact ih.move hm

theorem Path.registered {w w' : World} (h : Path ok w w') : w.registeredSockets ⊆ w'.registeredSockets := by
  induction h with
  | refl => exact List.Subset.refl _
  | tail _ hm ih =>
    obtain ⟨l, -, hm⟩ := hm
    exact List.Subset.trans ih hm.registered_subset

/-! ## The functions -/

theorem close_path {w w' : World} {v : Nat} (hw : Formed w) (h : w.close v = .ok w') :
    Path (fun l => l.Closing ∨ l = .release v) w w' := by
  have htr : Traces (Moves fun _ l => l.Closing ∨ l = .release v) Raises id w (w.close v) :=
    close_traces (fun _ => .inr rfl) (fun i hi => (hw.sockets v i hi).1) fun i hi _ =>
      (closeWithError_closes (hw.sockets v i hi).1 _).mono (Moves.mono fun _ _ => .inl) fun _ _ h => h
  rw [h] at htr
  exact htr

theorem setupOp_move {w w' : World} {i : Nat} {slot : Slot} {x : Handler} (hi : i ∈ w.registeredSockets)
    (hempty : (w.impls i).handlers slot = none) (hc : slot ≠ .connect) (ha : slot ≠ .accept)
    (hr : slot = .recv → (w.impls i).closed = false) (h : w.setupOp i slot x = .ok w') :
    Move w (.setup i slot x) w' := by
  simp only [setupOp, Except.bind_ok_iff, Except.pure_ok_iff] at h
  obtain ⟨c, hinc, rfl⟩ := h
  exact .setup hi hempty hc ha hr hinc

theorem postOp_move {w w' : World} {i size : Nat} {slot : Slot} {ec : ErrorCode} {data : List UInt8}
    (hslot : slot ≠ .accept) (h : w.postOp i slot ec size data = .ok w') : Move w (.post i slot) w' := by
  obtain ⟨x, hx, rfl⟩ := postOp_ok h
  exact .post hx hslot

/-- The label of an answer that is posted at once. -/
def Label.Refuses (x : Handler) : Label → Prop
  | .direct c => c.handler = x ∧ c.size = 0 ∧ c.data = []
  | _ => False

theorem writeBuffers_path {w w' : World} {i u : Nat} {bs bs' : List (List UInt8)} {rs : List WriteReply} {still : Bool}
    (hu : (w.impls i).utpSocket = some u) (h : writeBuffers i u w bs rs = .ok (w', bs', still)) :
    Path (fun l => l.Closing ∨ l.WritesTo i (some u)) w w' := by
  have htr : Traces (WriteMoves fun _ l => l.Closing ∨ l.WritesTo i (some u)) Raises (fun x => x.1) w
      (writeBuffers i u w bs rs) :=
    writeBuffers_traces (fun _ _ => .inr) (fun r _ => Sends.of_closing (fun _ _ => .inl) w r.sends) hu
  rw [h] at htr
  exact ReflTransGen.mono (Moves.mono fun _ _ hl => hl.1) _ _ htr

/-- A write is refused, or takes its slot, calls libutp and may be completed. -/
theorem doWrite_path {w w' : World} {i : Nat} {x : Handler} {rs : List WriteReply} (h : w.doWrite i x rs = .ok w')
    (hi : i ∈ w.registeredSockets) :
    ∃ l w₁, Move w l w₁ ∧
      Path (fun l => l.Closing ∨ l.WritesTo i (w.impls i).utpSocket) w₁ w' ∧
      (l = .setup i .send x ∨ l.Refuses x ∧ (w.impls i).utpSocket = none) := by
  unfold doWrite at h
  simp only [Except.bind_ok_iff, Except.require_ok_iff] at h
  obtain ⟨-, hempty, h⟩ := h
  cases hu : (w.impls i).utpSocket with
  | none =>
    simp only [hu] at h
    cases h
    exact ⟨_, _, .direct, .refl, .inr ⟨⟨rfl, rfl, rfl⟩, rfl⟩⟩
  | some u =>
    simp only [hu, Except.bind_ok_iff] at h
    obtain ⟨w₁, hsetup, ⟨w₂, bufs, still⟩, hwrite, h⟩ := h
    have hu₁ : (w₁.impls i).utpSocket = some u := by
      rw [(setupOp_impl hsetup).1]
      simpa [SocketImpl.setHandler] using hu
    refine ⟨_, w₁, setupOp_move hi hempty (by simp) (by simp) (by simp) hsetup, ?_, .inl rfl⟩
    have hcalls := writeBuffers_path hu₁ hwrite
    have hbufs := hcalls.trans ((Move.data (.tx (w₂.impls i) bufs (w₂.impls i).bytesSent)).path (.inr rfl))
    dsimp only at h
    split at h
    · simp only [Except.bind_ok_iff, Except.pure_ok_iff] at h
      obtain ⟨w₃, hpost, rfl⟩ := h
      exact (hbufs.trans ((postOp_move (by simp) hpost).path (.inr ⟨rfl, rfl⟩))).trans
        ((Move.data (.tx (w₃.impls i) (w₃.impls i).txBuffers 0)).path (.inr rfl))
    · cases h
      exact hbufs

/-- What follows when a read has taken its slot: it is completed, from the queue or because the stream is over. -/
def Label.ReadsOn (i : Nat) (l : Label) : Prop :=
  l = .received i ∨ l = .post i .recv ∨ l = .shut i .connectionReset

/-- A read is refused, or takes its slot and may be completed. -/
theorem doRead_path {w w' : World} {i : Nat} {x : Handler} (h : w.doRead i x = .ok w')
    (hi : i ∈ w.registeredSockets) :
    ∃ l w₁, Move w l w₁ ∧ Path (·.ReadsOn i) w₁ w' ∧ (l = .setup i .recv x ∨ l.Refuses x) := by
  unfold doRead at h
  simp only [Except.bind_ok_iff, Except.require_ok_iff] at h
  obtain ⟨-, hempty, h⟩ := h
  split at h
  · cases h
    exact ⟨_, _, .direct, .refl, .inr ⟨rfl, rfl, rfl⟩⟩
  next hopen =>
  split at h
  · cases h
    exact ⟨_, _, .direct, .refl, .inr ⟨rfl, rfl, rfl⟩⟩
  have hopen : (w.impls i).closed = false := by simpa using hopen
  simp only [Except.bind_ok_iff] at h
  obtain ⟨w₁, hsetup, h⟩ := h
  refine ⟨_, w₁, setupOp_move hi hempty (by simp) (by simp) (fun _ => hopen) hsetup, ?_, .inl rfl⟩
  obtain ⟨himpls, -, hreg⟩ := setupOp_impl hsetup
  split at h
  · split at h
    · next heof =>
      have hopen₁ : (w₁.impls i).closed = false := by simpa [himpls, SocketImpl.setHandler] using hopen
      have heof₁ : (w₁.impls i).gotEof = true := by simpa [himpls, SocketImpl.setHandler] using heof
      obtain ⟨hclose, hshut⟩ := closeWithError_simple .connectionReset hopen₁ (.inr heof₁)
      rw [hclose, ← hshut] at h
      cases h
      exact (Move.shut (hreg ▸ hi) hopen₁ fun _ _ hne => absurd heof₁ (by simp [hne])).path (.inr (.inr rfl))
    · cases h
      exact .refl
  · simp only [Except.bind_ok_iff] at h
    obtain ⟨queue, -, h⟩ := h
    have hdata : Path (·.ReadsOn i) w₁ _ := (Move.received (.rx (w₁.impls i)
      (Scatter.copy (w.impls i).rxBuffers (unread (w.impls i).rxBufferQueue)) queue)).path (.inl rfl)
    exact hdata.trans ((postOp_move (by simp) h).path (.inr (.inl rfl)))

theorem onReceive_path {w w' : World} {i : Nat} {buf : List UInt8} {ecs : List ErrorCode}
    (h : w.onReceive i buf ecs = .ok w') :
    Path (fun l => l.Closing ∨ l = .received i ∨ l = .post i .recv) w w' := by
  unfold onReceive at h
  dsimp only at h
  split at h
  · cases h
    exact (Move.received (.rx _ _ _)).path (.inr (.inl rfl))
  simp only [Except.bind_ok_iff] at h
  obtain ⟨-, -, w₁, hdrained, hpost⟩ := h
  have hfill : Path (fun l => l.Closing ∨ l = .received i ∨ l = .post i .recv) w
      (w.setImpl i (fill (w.impls i) buf)) := (Move.received (.rx _ _ _)).path (.inr (.inl rfl))
  refine (hfill.trans ?_).trans ((postOp_move (by simp) hpost).path (.inr (.inr rfl)))
  unfold drainedIf utpReadDrained at hdrained
  split at hdrained
  · split at hdrained
    · cases hdrained
    · simp only [Except.bind_ok_iff] at hdrained
      obtain ⟨-, -, hsends⟩ := hdrained
      exact sends_path (fun _ => .inl) hsends
  · cases hdrained
    exact .refl

theorem doConnect_path {w w' : World} {i : Nat} {ep : Endpoint} {x : Handler} {ecs onClose : List ErrorCode}
    (hi : i ∈ w.registeredSockets) (h : w.doConnect i ep x ecs onClose = .ok w') :
    ∃ w₁, Move w (.connect i x) w₁ ∧ Path Label.Closing w₁ w' := by
  obtain ⟨hnone, c, hinc, hsends⟩ := doConnect_ok h
  exact ⟨_, .connect hi hnone hinc, sends_path (fun _ => id) hsends⟩

theorem doAccept_move {w w' : World} {i : Nat} {x : Handler} (hi : i ∈ w.registeredSockets)
    (h : w.doAccept i x = .ok w') : Move w (.waiting i x) w' := by
  simp only [doAccept, addAcceptingSocket, setupOp, Except.bind_ok_iff, Except.require_ok_iff,
    Except.pure_ok_iff] at h
  obtain ⟨-, hempty, w₁, ⟨-, hfree, rfl⟩, c, hinc, rfl⟩ := h
  exact .waiting hi hempty hfree hinc

/-- A `utp_socket` that is nobody's is left alone by sends. -/
theorem sends_free {w w' : World} {ecs : List ErrorCode} {u : Nat} (h : w.sends ecs = .ok w')
    (hfree : ∀ j, (w.impls j).utpSocket ≠ some u) :
    w'.utp u = w.utp u ∧ w'.created = w.created ∧ ∀ j, (w'.impls j).utpSocket ≠ some u := by
  have htr := sends_closes w ecs
  rw [h] at htr
  refine htr.keeps (fun s => s.utp u = w.utp u ∧ s.created = w.created ∧ ∀ j, (s.impls j).utpSocket ≠ some u)
    (fun s s' hs hm => ?_) ⟨rfl, rfl, hfree⟩
  obtain ⟨h1, h2, h3⟩ := hm.keeps_free hs.2.2
  exact ⟨h1.trans hs.1, h2.trans hs.2.1, h3⟩

theorem incoming_path {w w' : World} {ep : Endpoint} {ecs onClose : List ErrorCode} (hw : Handles w)
    (h : w.incoming ep ecs onClose = .ok w') :
    Path (fun l => l.Closing ∨ l = .create ∨ ∃ i, l = .accept i w.created) w w' := by
  rcases incoming_ok h with ⟨-, rfl⟩ | ⟨w₁, hsends, h⟩
  · exact .refl
  have hsofar : Path (fun l => l.Closing ∨ l = .create ∨ ∃ i, l = .accept i w.created) w w₁ :=
    (Move.create.path (.inr (.inl rfl))).trans (sends_path (fun _ => .inl) hsends)
  rcases h with rfl | ⟨i, rest, x, hi, hnone, hx, rfl⟩
  · exact hsofar
  obtain ⟨hutp, hcreated, hfree⟩ := sends_free (u := w.created) hsends fun j hj =>
    absurd (hw.attached j _ hj).1 (lt_irrefl _)
  rw [arriving, setUtp_utp, Function.update_self] at hutp
  have haccept : Move w₁ (.accept i w.created) (w₁.accepting i w.created rest x) :=
    .accept hi hnone hx (by rw [hutp]) (by rw [hcreated]; exact Nat.lt_succ_self _) (by rw [hutp]) hfree
      (by rw [hutp])
  exact hsofar.trans (haccept.path (.inr (.inr ⟨i, rfl⟩)))

/-- libutp destroys a socket: one that is nobody's, or one that is then let go of. -/
theorem destroying_path {w w' : World} {u : Nat} {rs : List WriteReply} (halive : (w.utp u).alive = true)
    (h : w.stateChange u .destroying rs = .ok w') :
    Path (fun l => l = .die u ∨ ∃ i, (w.utp u).userdata = some i ∧ (l = .destroy i u ∨ l = .decrement i)) w w' := by
  simp only [stateChange, callbackOnStateChange, if_true, Except.bind_ok_iff, Except.pure_ok_iff] at h
  obtain ⟨w₁, h, rfl⟩ := h
  split at h
  · next hnone =>
    cases h
    exact (Move.die hnone).path (.inl rfl)
  next i hi =>
  unfold onDestroy at h
  simp only [Except.bind_ok_iff, Except.require_ok_iff] at h
  obtain ⟨-, hatt, w₂, hclose, h⟩ := h
  rcases destroy_closes (w := w) (i := i) with ⟨f, heq, -⟩ | ⟨hslots, heq⟩ <;> rw [heq] at hclose <;> cases hclose
  have hdestroy := Move.destroy halive hi hatt hslots
  split at h
  · next hdec =>
    cases h
    have hboth : ∀ {w₁}, Move w (.destroy i u) w₁ → (w₁.impls i).decrementClose = true →
        Path (fun l => l = .die u ∨ ∃ i, (w.utp u).userdata = some i ∧ (l = .destroy i u ∨ l = .decrement i)) w
          (({ w₁ with ctx := w₁.ctx.decrementOutstandingOps } : World).setImpl i
            { w₁.impls i with decrementClose := false }) := fun hm hd =>
      (hm.path (.inr ⟨i, hi, .inl rfl⟩)).trans ((Move.decrement hd).path (.inr ⟨i, hi, .inr rfl⟩))
    simpa [setImpl, setUtp] using hboth hdestroy (by simpa [setImpl, setUtp] using hdec)
  · cases h
    exact hdestroy.path (.inr ⟨i, hi, .inl rfl⟩)

theorem onEof_path {w w' : World} {i : Nat} (h : w.onEof i = .ok w') :
    Path (fun l => l = .eof i ∨ l = .post i .recv) w w' := by
  simp only [onEof, Except.bind_ok_iff, Except.pure_ok_iff] at h
  obtain ⟨-, -, rfl⟩ := h
  have heof : Path (fun l => l = .eof i ∨ l = .post i .recv) w _ := (Move.eof (i := i)).path (.inl rfl)
  unfold postIfSet
  split
  · exact heof
  · next x hx => exact heof.trans ((Move.post hx (by simp)).path (.inr rfl))

/-! ## The events -/

/-- The labels of the moves of an event. -/
def Permits (w : World) : Event → Label → Prop
  | .socket, l => l = .socket
  | .bind v, l => l = .bind v
  | .moveConstruct v, l => l = .moveConstruct v
  | .moveAssign v v', l => l.Closing ∨ l = .release v ∨ l = .assign v v'
  | .close v, l => l.Closing ∨ l = .release v
  | .asyncConnect v _ _ _, l => l = .number ∨ l.Refuses w.nextHandler ∨
      ∃ i, (w.sockets v).impl = some i ∧ (l = .connect i w.nextHandler ∨ l.Closing)
  | .asyncAccept v, l => l = .number ∨ l.Refuses w.nextHandler ∨
      ∃ i, (w.sockets v).impl = some i ∧ l = .waiting i w.nextHandler
  | .asyncWriteSome v _ _, l => l = .number ∨ l.Refuses w.nextHandler ∨
      ∃ i, (w.sockets v).impl = some i ∧
        (l = .setup i .send w.nextHandler ∨ l = .data i ∨ l.Closing ∨ l.WritesTo i (w.impls i).utpSocket)
  | .asyncReadSome v _, l => l = .number ∨ l.Refuses w.nextHandler ∨
      ∃ i, (w.sockets v).impl = some i ∧ (l = .setup i .recv w.nextHandler ∨ l.ReadsOn i)
  | .sendto _, l => l.Closing
  | .stateChange u state _, l =>
    match state with
    | .connect => ∃ i, (w.utp u).userdata = some i ∧ l = .post i .connect
    | .writable => ∃ i, (w.utp u).userdata = some i ∧
        (l = .take i ∨ (∃ x, (w.impls i).handlers .send = some x ∧ l = .setup i .send x) ∨ l.Closing ∨
          l.WritesTo i (some u))
    | .eof => ∃ i, (w.utp u).userdata = some i ∧ (l = .eof i ∨ l = .post i .recv)
    | .destroying => l = .die u ∨ ∃ i, (w.utp u).userdata = some i ∧ (l = .destroy i u ∨ l = .decrement i)
  | .onRead u _ _, l => ∃ i, (w.utp u).userdata = some i ∧ (l.Closing ∨ l = .received i ∨ l = .post i .recv)
  | .incoming _ _ _, l => l.Closing ∨ l = .create ∨ ∃ i, l = .accept i w.created
  | .run c, l => l = .run c
  | .ran, l => l = .ran
  | .context ev, l => l = .loop ev

/-- The labels that neither start a call nor run a handler. -/
def Label.Inner : Label → Prop
  | .number | .run _ | .ran => False
  | _ => True

/-- Those that only take handlers from their slots to the user. -/
def Label.Steady : Label → Prop
  | .setup _ _ _ | .connect _ _ | .waiting _ _ | .take _ | .direct _ => False
  | l => l.Inner

theorem Label.Steady.inner {l : Label} (h : l.Steady) : l.Inner := by
  cases l <;> first | exact h | exact h.elim

theorem Label.Closing.steady {l : Label} (h : l.Closing) : l.Steady := by
  cases l <;> first | exact h.elim | trivial

theorem Label.WritesTo.steady {i : Nat} {u : Option Nat} {l : Label} (h : l.WritesTo i u) : l.Steady := by
  cases l <;> first | exact h.elim | trivial

theorem Label.ReadsOn.steady {i : Nat} {l : Label} (h : l.ReadsOn i) : l.Steady := by
  rcases h with rfl | rfl | rfl <;> trivial

/-- The labels with which a handler comes into its slot, or is posted at once. -/
def Label.Gives (x : Handler) : Label → Prop
  | .setup _ _ y | .connect _ y | .waiting _ y => y = x
  | l => l.Refuses x

/-- An operation is numbered, its buffers are noted, its handler is given once; the rest is steady. -/
theorem starts_path {w w' : World} {ev : Event} {v : Nat} {slot : Slot} (hw : Formed w)
    (hev : ev.starts = some (v, slot)) (hs : w.step ev = .ok w') :
    ∃ w₀ l w₁, Path (fun l => w.Permits ev l ∧ l.Steady) w.numberOp w₀ ∧ Move w₀ l w₁ ∧ w.Permits ev l ∧
      l.Gives w.nextHandler ∧ Path (fun l => w.Permits ev l ∧ l.Steady) w₁ w' := by
  have hreg : ∀ v i, (w.sockets v).impl = some i → i ∈ w.numberOp.registeredSockets := fun v i hi =>
    (hw.sockets v i hi).1
  cases ev with
  | asyncConnect v ep ecs onClose =>
    simp only [step, asyncConnect] at hs
    split at hs
    · cases hs
      exact ⟨_, _, _, .refl, .direct, .inr (.inl ⟨rfl, rfl, rfl⟩), ⟨rfl, rfl, rfl⟩, .refl⟩
    · next i hi =>
      obtain ⟨w₁, hm, hrest⟩ := doConnect_path (hreg v i hi) hs
      exact ⟨_, _, w₁, .refl, hm, .inr (.inr ⟨i, hi, .inl rfl⟩), rfl,
        hrest.mono fun l hl => ⟨.inr (.inr ⟨i, hi, .inr hl⟩), hl.steady⟩⟩
  | asyncAccept v =>
    simp only [step, asyncAccept] at hs
    split at hs
    · cases hs
      exact ⟨_, _, _, .refl, .direct, .inr (.inl ⟨rfl, rfl, rfl⟩), ⟨rfl, rfl, rfl⟩, .refl⟩
    · next i hi =>
      exact ⟨_, _, _, .refl, doAccept_move (hreg v i hi) hs, .inr (.inr ⟨i, hi, rfl⟩), rfl, .refl⟩
  | asyncWriteSome v bufs rs =>
    simp only [step, asyncWriteSome] at hs
    split at hs
    · cases hs
      exact ⟨_, _, _, .refl, .direct, .inr (.inl ⟨rfl, rfl, rfl⟩), ⟨rfl, rfl, rfl⟩, .refl⟩
    · next i hi =>
      obtain ⟨l, w₁, hm, hrest, hl⟩ := doWrite_path hs (hreg v i hi)
      refine ⟨_, l, w₁, (Move.data (.tx (w.numberOp.impls i) bufs (w.impls i).bytesSent)).path
        ⟨.inr (.inr ⟨i, hi, .inr (.inl rfl)⟩), trivial⟩, hm, ?_, ?_, hrest.mono fun l hl => ?_⟩
      · exact hl.elim (fun hl => .inr (.inr ⟨i, hi, .inl hl⟩)) fun hl => .inr (.inl hl.1)
      · rcases hl with rfl | ⟨hl, -⟩
        · rfl
        · cases l <;> first | exact hl | exact hl.elim
      · have hu : ((w.numberOp.setImpl i { w.numberOp.impls i with txBuffers := bufs }).impls i).utpSocket =
            (w.impls i).utpSocket := by simp [setImpl, numberOp]
        rw [hu] at hl
        exact ⟨.inr (.inr ⟨i, hi, .inr (.inr hl)⟩), hl.elim (·.steady) (·.steady)⟩
  | asyncReadSome v bufs =>
    simp only [step, asyncReadSome] at hs
    split at hs
    · cases hs
      exact ⟨_, _, _, .refl, .direct, .inr (.inl ⟨rfl, rfl, rfl⟩), ⟨rfl, rfl, rfl⟩, .refl⟩
    · next i hi =>
      obtain ⟨l, w₁, hm, hrest, hl⟩ := doRead_path hs (hreg v i hi)
      refine ⟨_, l, w₁, (Move.received (.rx (w.numberOp.impls i) bufs (w.impls i).rxBufferQueue)).path
        ⟨.inr (.inr ⟨i, hi, .inr (.inl rfl)⟩), trivial⟩, hm, ?_, ?_,
        hrest.mono fun l hl => ⟨.inr (.inr ⟨i, hi, .inr hl⟩), hl.steady⟩⟩
      · exact hl.elim (fun hl => .inr (.inr ⟨i, hi, .inl hl⟩)) fun hl => .inr (.inl hl)
      · rcases hl with rfl | hl
        · rfl
        · cases l <;> first | exact hl | exact hl.elim
  | _ => cases hev

/-- A write that is resumed is taken out of its slot and given again. -/
theorem resumes_path {w w' : World} {u i : Nat} {x : Handler} {rs : List WriteReply} (hw : Sound w)
    (halive : (w.utp u).alive = true) (hu : (w.utp u).userdata = some i) (hx : (w.impls i).handlers .send = some x)
    (hs : w.step (.stateChange u .writable rs) = .ok w') :
    ∃ w₀ w₁, Move w (.take i) w₀ ∧ Move w₀ (.setup i .send x) w₁ ∧
      Path (fun l => l.Closing ∨ l.WritesTo i (some u)) w₁ w' := by
  have hatt := hw.handles.back u i halive hu
  rw [step_writable hu, onWritable, hx] at hs
  obtain ⟨l, w₁, hm, hrest, hl⟩ := doWrite_path hs (hw.formed.userdata u i hu)
  have hu₀ : ((w.setImpl i ((w.impls i).setHandler .send none)).impls i).utpSocket = some u := by
    simpa [setImpl, SocketImpl.setHandler] using hatt
  rw [hu₀] at hrest hl
  rcases hl with rfl | ⟨-, hl⟩
  · exact ⟨_, w₁, .take hx, hm, hrest⟩
  · cases hl

/-- The event starts no call, resumes no write and runs no handler. -/
def Event.Steady : Event → Prop
  | .run _ | .ran | .stateChange _ .writable _ => False
  | ev => ev.starts = none

theorem steady_path {w w' : World} {ev : Event} (hw : Sound w) (hen : w.Enabled ev) (hev : ev.Steady)
    (hs : w.step ev = .ok w') : Path (fun l => w.Permits ev l ∧ l.Steady) w w' := by
  cases ev with
  | ran | run c => exact hev.elim
  | asyncConnect | asyncAccept | asyncWriteSome | asyncReadSome => cases hev
  | socket =>
    cases hs
    exact Move.socket.path ⟨rfl, trivial⟩
  | bind v =>
    cases hs
    exact (Move.bind hen.1 hen.2).path ⟨rfl, trivial⟩
  | moveConstruct v =>
    cases hs
    exact (Move.moveConstruct hen).path ⟨rfl, trivial⟩
  | moveAssign v v' =>
    simp only [step, moveAssign, Except.bind_ok_iff] at hs
    obtain ⟨w₁, hclose, hs⟩ := hs
    split at hs
    · cases hs
    next hnone =>
    cases hs
    refine ((close_path hw.formed hclose).mono fun l hl => ?_).trans
      ((Move.assign (close_impl hclose) hnone).path ⟨.inr (.inr rfl), trivial⟩)
    rcases hl with hl | rfl
    · exact ⟨.inl hl, hl.steady⟩
    · exact ⟨.inr (.inl rfl), trivial⟩
  | close v =>
    refine (close_path hw.formed hs).mono fun l hl => ?_
    rcases hl with hl | rfl
    · exact ⟨.inl hl, hl.steady⟩
    · exact ⟨.inr rfl, trivial⟩
  | sendto ec =>
    have hs : w.callbackSendto ec = .ok w' := hs
    have htr := callbackSendto_closes w ec
    rw [hs] at htr
    exact path_of_closes (fun l hl => ⟨hl, hl.steady⟩) htr
  | stateChange u state rs =>
    by_cases hd : state = .destroying
    · subst hd
      refine (destroying_path hen.2 hs).mono fun l hl => ⟨hl, ?_⟩
      rcases hl with rfl | ⟨i, -, rfl | rfl⟩ <;> trivial
    simp only [step, stateChange, callbackOnStateChange, hd, if_false, Except.bind_ok_iff, Except.pure_ok_iff] at hs
    obtain ⟨w₁, hs, rfl⟩ := hs
    split at hs
    · cases hs
      exact .refl
    next i hi =>
    cases state with
    | connect => exact (postOp_move (by simp) hs).path ⟨⟨i, hi, rfl⟩, trivial⟩
    | writable => exact hev.elim
    | eof =>
      refine (onEof_path hs).mono fun l hl => ⟨⟨i, hi, hl⟩, ?_⟩
      rcases hl with rfl | rfl <;> trivial
    | destroying => exact absurd rfl hd
  | onRead u buf ecs =>
    simp only [step, callbackOnRead] at hs
    split at hs
    · cases hs
    next i hi =>
    refine (onReceive_path hs).mono fun l hl => ⟨⟨i, hi, hl⟩, ?_⟩
    rcases hl with hl | rfl | rfl
    · exact hl.steady
    all_goals trivial
  | incoming ep ecs onClose =>
    refine (incoming_path hw.handles hs).mono fun l hl => ⟨hl, ?_⟩
    rcases hl with hl | rfl | ⟨i, rfl⟩
    · exact hl.steady
    all_goals trivial
  | context ev =>
    simp only [step, Except.bind_ok_iff, Except.pure_ok_iff] at hs
    obtain ⟨c, hc, rfl⟩ := hs
    exact (Move.loop hen.1 hen.2 hc).path ⟨rfl, trivial⟩

/-- **The moves of an event.** -/
theorem step_path {w w' : World} {ev : Event} (hw : Sound w) (hen : w.Enabled ev) (hs : w.step ev = .ok w') :
    Path (w.Permits ev) w w' := by
  cases hstart : ev.starts with
  | some p =>
    obtain ⟨w₀, l, w₁, hpre, hm, hl, -, hrest⟩ := starts_path hw.formed hstart hs
    have hnumber : w.Permits ev .number := by
      cases ev <;> first | exact .inl rfl | cases hstart
    exact (((Move.number.path hnumber).trans (hpre.mono fun _ => And.left)).trans (hm.path hl)).trans
      (hrest.mono fun _ => And.left)
  | none =>
    by_cases hev : ev.Steady
    · exact (steady_path hw hen hev hs).mono fun _ => And.left
    cases ev with
    | run c =>
      cases hs
      exact (Move.run hen).path rfl
    | ran =>
      cases hs
      exact Move.ran.path rfl
    | stateChange u state rs =>
      cases state with
      | writable =>
        cases hu : (w.utp u).userdata with
        | none =>
          simp only [step, stateChange, callbackOnStateChange, hu, Except.ok_bind] at hs
          cases hs
          exact .refl
        | some i =>
          cases hx : (w.impls i).handlers .send with
          | none =>
            rw [step_writable hu, onWritable, hx] at hs
            cases hs
            exact .refl
          | some x =>
            obtain ⟨w₀, w₁, htake, hsetup, hrest⟩ := resumes_path hw hen.2 hu hx hs
            exact ((htake.path ⟨i, hu, .inl rfl⟩).trans (hsetup.path ⟨i, hu, .inr (.inl ⟨x, hx, rfl⟩)⟩)).trans
              (hrest.mono fun l hl => ⟨i, hu, .inr (.inr hl)⟩)
      | _ => exact absurd rfl hev
    | _ => exact absurd hstart hev

end World

end AsioUtp
