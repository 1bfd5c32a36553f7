/-
A closed socket has no pending operation, as long as none is left waiting on it.

Of the four operations only `do_read` asks whether the socket is open.
`do_connect` and `do_accept` do not, and `do_write` asks for a `utp_socket`,
which a socket closed at the end of its stream still has. In runs that start
none of the three on a closed `socket_impl`, whatever closes it, the slots of
a closed socket are empty at every move (`closedIdle_move`). A write on a
closed one does no harm either if libutp takes all of it at once; so the
condition of `closed_idle`, which says that the assertions of
`close_with_error` hold, is only that nothing is left waiting (`WaitsOpen`).
-/
import AsioUtp.Reentry

namespace AsioUtp

namespace World

open Machine

def ClosedIdle (w : World) : Prop := ∀ i, (w.impls i).closed = true → ∀ slot, (w.impls i).handlers slot = none

/-- Operations start on open sockets. A read does anyway. -/
def StartsOnOpen (w : World) : Label → Prop
  | .setup i slot _ => slot = .recv ∨ (w.impls i).closed = false
  | .connect i _ | .waiting i _ => (w.impls i).closed = false
  | _ => True

theorem ClosedIdle.setImpl {w w' : World} (h : ClosedIdle w) {i : Nat} {s : SocketImpl}
    (himpl : w'.impls = Function.update w.impls i s) (hs : s.closed = true → ∀ slot, s.handlers slot = none) :
    ClosedIdle w' := by
  rw [ClosedIdle, himpl]
  exact (Function.forall_update_iff w.impls fun _ s => s.closed = true → ∀ slot, s.handlers slot = none).2
    ⟨hs, fun j _ => h j⟩

theorem ClosedIdle.clear {w : World} (h : ClosedIdle w) (i : Nat) (slot : Slot) (hc : (w.impls i).closed = true) :
    ∀ slot', Function.update (w.impls i).handlers slot none slot' = none := by
  intro slot'
  by_cases hs : slot' = slot
  · subst hs
    simp
  · rw [Function.update_of_ne hs]
    exact h i hc slot'

theorem closedIdle_move {w w' : World} {l : Label} (h : ClosedIdle w) (hok : StartsOnOpen w l) (hm : Move w l w') :
    ClosedIdle w' := by
  cases hm with
  | setup _ _ _ _ hr _ =>
    refine h.setImpl rfl fun hc => ?_
    have hc : (w.impls _).closed = true := hc
    rcases hok with hok | hok
    · rw [hr hok] at hc
      cases hc
    · rw [hok] at hc
      cases hc
  | connect | waiting =>
    refine h.setImpl rfl fun hc => ?_
    have hc : (w.impls _).closed = true := hc
    rw [show (w.impls _).closed = false from hok] at hc
    cases hc
  | take | post => exact h.setImpl rfl fun hc => h.clear _ _ hc
  | @shut i ec _ _ _ =>
    obtain ⟨utp, heq, -⟩ := shutUtp_eq w i ec
    exact h.setImpl (by rw [heq]) fun _ _ => rfl
  | finish hclosed hf =>
    obtain ⟨-, c, -, rfl⟩ := finishClose_ok_iff.1 hf
    exact h.setImpl rfl fun hc => h _ hc
  | data hs | received hs =>
    refine h.setImpl rfl fun hc => ?_
    rw [hs.closed] at hc
    rw [hs.handlers]
    exact h _ hc
  | eof | decrement => exact h.setImpl rfl fun hc => h _ hc
  | accept => exact h.setImpl rfl fun hc => h.clear _ _ hc
  | destroy => exact h.setImpl rfl fun _ _ => rfl
  | direct | wrote | create | die | number | socket | release | assign | run | loop => exact h
  | bind =>
    unfold World.bind
    split
    · exact h
    · exact h.setImpl rfl fun hc => by simp at hc
  | moveConstruct =>
    unfold World.moveConstruct
    dsimp only
    split
    · exact h.setImpl rfl fun hc => h _ hc
    · exact h
  | ran =>
    unfold World.ran
    split
    · exact h
    · dsimp only
      split <;> exact h

/-- `async_connect`, `async_accept` and `async_write_some` are called on a socket that is not closed. -/
def StartsOpen (w : World) : Event → Prop
  | .asyncConnect v _ _ _ | .asyncAccept v | .asyncWriteSome v _ _ =>
      ∀ i ∈ (w.sockets v).impl, (w.impls i).closed = false
  | _ => True

instance (w : World) : (ev : Event) → Decidable (w.StartsOpen ev)
  | .asyncConnect v _ _ _ | .asyncAccept v | .asyncWriteSome v _ _ =>
    inferInstanceAs (Decidable (∀ i ∈ (w.sockets v).impl, _))
  | .socket | .bind _ | .moveConstruct _ | .moveAssign _ _ | .close _ | .asyncReadSome _ _ | .sendto _
  | .stateChange _ _ _ | .onRead _ _ _ | .incoming _ _ _ | .run _ | .ran | .context _ =>
    inferInstanceAs (Decidable True)

theorem starts_startsOnOpen {w : World} (h : ClosedIdle w) {ev : Event} (hs : w.StartsOpen ev) :
    Starts StartsOnOpen w ev := by
  cases ev with
  | asyncConnect v ep ecs onClose => exact ⟨trivial, fun i hi => hs i hi⟩
  | asyncAccept v => exact ⟨trivial, fun i hi => hs i hi⟩
  | asyncWriteSome v bufs rs =>
    refine ⟨trivial, fun i hi => ⟨.inr ?_, trivial⟩⟩
    simpa using hs i hi
  | asyncReadSome v bufs => exact ⟨trivial, fun i _ => ⟨fun _ => trivial, .inl rfl, fun _ => trivial⟩⟩
  | stateChange u state rs =>
    intro i _
    cases state with
    | writable =>
      refine fun x hx => ⟨trivial, .inr ?_, trivial⟩
      -- A pending write is on an open socket.
      cases hc : (w.impls i).closed with
      | false => simp [SocketImpl.setHandler, hc]
      | true =>
        rw [h i hc] at hx
        cases hx
    | connect | eof | destroying => trivial
  | onRead u buf ecs => exact fun _ _ => trivial
  | _ => trivial

theorem StartsOpen.traces {w : World} (hw : Sound w) (h : ClosedIdle w) {ev : Event} (hen : w.Enabled ev)
    (hs : w.StartsOpen ev) : Traces (Moves StartsOnOpen) (RaisesIn ev) id w (w.step ev) :=
  hw.starts (fun w l hl => by cases l <;> trivial) (fun w l hl => by cases l <;> trivial) hen (starts_startsOnOpen h hs)

theorem closedIdle_moves {w w' : World} (h : ClosedIdle w) (hm : Moves StartsOnOpen w w') : ClosedIdle w' := by
  obtain ⟨l, hl, hm⟩ := hm
  exact closedIdle_move h hl hm

theorem closedIdle_step {w w' : World} {ev : Event} (hw : Sound w) (h : ClosedIdle w) (hen : w.Enabled ev)
    (hopen : w.StartsOpen ev) (hs : w.step ev = .ok w') : ClosedIdle w' := by
  have htr := hopen.traces hw h hen
  rw [hs] at htr
  exact htr.keeps ClosedIdle (fun _ _ => closedIdle_moves) h

theorem step_ne_closedSite {w : World} {ev : Event} (hw : Sound w) (h : ClosedIdle w) (hen : w.Enabled ev)
    (hopen : w.StartsOpen ev) (slot : Slot) : w.step ev ≠ .error (.assertion (closedSite slot)) := by
  intro hfault
  have htr := hopen.traces hw h hen
  rw [hfault] at htr
  obtain ⟨w', hw', hraise⟩ := htr.faults ClosedIdle (fun _ _ => closedIdle_moves) h
  obtain ⟨i, hc, hp⟩ : ∃ i, (w'.impls i).closed = true ∧ w'.Pending i slot := by
    cases slot <;> exact hraise
  exact hp (hw' i hc slot)

/-! ## A write libutp takes at once -/

theorem doWrite_taken {w : World} {i u : Nat} (x : Handler) (rs : List WriteReply) (hw : Sound w)
    (hi : i ∈ w.registeredSockets) (hnone : (w.impls i).handlers .send = none) (hu : (w.impls i).utpSocket = some u)
    (hquiet : ¬ w.CallsFail (writeCalls (w.impls i).txBuffers rs).1)
    (htaken : ¬ Unfinished (writeCalls (w.impls i).txBuffers rs).1) :
    ∃ w', w.doWrite i x rs = .ok w' ∧
      ∀ j, (w'.impls j).closed = (w.impls j).closed ∧ (w'.impls j).handlers = (w.impls j).handlers := by
  obtain ⟨w₁, hsetup⟩ := setupOp_ok w i .send x
  obtain ⟨hw₁, halive, -, himpl⟩ := setupOp_send hw hi hnone hsetup
  have hself : w₁.impls i = (w.impls i).setHandler .send (some { x with after := true }) := by
    rw [himpl, Function.update_self]
  have hquiet₁ : ¬ w₁.CallsFail (writeCalls (w.impls i).txBuffers rs).1 := mt (callsFail_alive halive _).1 hquiet
  obtain ⟨w₂, hfold⟩ := writeCalls_quiet hw₁ (by rw [hself]; exact hu) hquiet₁
  have hsame := (writeCalls_shuts hfold).2.2 hquiet₁
  have hslot : (w₂.impls i).handlers .send = some { x with after := true } := by
    rw [(hsame i).handlers, hself]
    simp
  have hstill : (writeCalls (w.impls i).txBuffers rs).2.2 = true := by
    simpa using mt (writeCalls_unfinished _ rs).1 htaken
  rw [doWrite_eq hnone hu hsetup, hfold, Except.ok_bind, hstill]
  simp only [endWrite, postOp, setImpl, Function.update_self, hslot, if_true, Except.ok_bind]
  refine ⟨_, rfl, fun j => ?_⟩
  by_cases hj : j = i
  · subst hj
    simp only [post, Function.update_self, SocketImpl.setHandler]
    refine ⟨(hsame j).closed.trans (by rw [hself]; rfl), ?_⟩
    rw [(hsame j).handlers, hself, setHandler_handlers, Function.update_idem, ← hnone, Function.update_eq_self]
  · have hother : w₁.impls j = w.impls j := by rw [himpl, Function.update_of_ne hj]
    simp only [post, Function.update_of_ne hj]
    exact ⟨(hsame j).closed.trans (by rw [hother]), (hsame j).handlers.trans (by rw [hother])⟩

/-- No call is left waiting on a closed socket: no connect and no accept is started on one, and a write only if there
is no `utp_socket` or libutp takes all of it at once, with no send that fails. -/
def WaitsOpen (w : World) : Event → Prop
  | .asyncConnect v _ _ _ | .asyncAccept v => ∀ i ∈ (w.sockets v).impl, (w.impls i).closed = false
  | .asyncWriteSome v bufs rs => ∀ i ∈ (w.sockets v).impl, (w.impls i).closed = false ∨
      (w.impls i).utpSocket = none ∨ ¬ w.CallsFail (writeCalls bufs rs).1 ∧ ¬ Unfinished (writeCalls bufs rs).1
  | _ => True

instance (w : World) (calls : List (List UInt8 × WriteReply)) : Decidable (w.CallsFail calls) :=
  inferInstanceAs (Decidable (∃ c ∈ calls, w.ctx.alive = true ∧ ∃ ec ∈ c.2.sends, fatal ec = true))

instance (calls : List (List UInt8 × WriteReply)) : Decidable (Unfinished calls) :=
  inferInstanceAs (Decidable (∃ c ∈ calls, c.2.accepted < c.1.length - c.2.accepted))

instance (w : World) : (ev : Event) → Decidable (w.WaitsOpen ev)
  | .asyncConnect v _ _ _ | .asyncAccept v | .asyncWriteSome v _ _ =>
    inferInstanceAs (Decidable (∀ i ∈ (w.sockets v).impl, _))
  | .socket | .bind _ | .moveConstruct _ | .moveAssign _ _ | .close _ | .asyncReadSome _ _ | .sendto _
  | .stateChange _ _ _ | .onRead _ _ _ | .incoming _ _ _ | .run _ | .ran | .context _ =>
    inferInstanceAs (Decidable True)

theorem asyncWriteSome_closed {w : World} {v i : Nat} {bufs : List (List UInt8)} {rs : List WriteReply} (hw : Sound w)
    (hidle : ClosedIdle w) (hi : (w.sockets v).impl = some i) (hclosed : (w.impls i).closed = true)
    (hwaits : w.WaitsOpen (.asyncWriteSome v bufs rs)) :
    ∃ w', w.step (.asyncWriteSome v bufs rs) = .ok w' ∧ ClosedIdle w' := by
  have hreg := (hw.formed.sockets v i hi).1
  have hnone := hidle i hclosed .send
  set w₁ := w.numberOp.setImpl i { w.impls i with txBuffers := bufs } with hw₁
  have hstep : w.step (.asyncWriteSome v bufs rs) = w₁.doWrite i w.nextHandler rs := by
    simp only [step, asyncWriteSome, numberOp, hi, hw₁]
  have himpl : w₁.impls = Function.update w.impls i { w.impls i with txBuffers := bufs } := rfl
  have hself : w₁.impls i = { w.impls i with txBuffers := bufs } := by rw [himpl, Function.update_self]
  have hidle₁ : ClosedIdle w₁ := hidle.setImpl himpl fun hc => hidle i hc
  rw [hstep]
  cases hu : (w.impls i).utpSocket with
  | none =>
    exact ⟨_, doWrite_detached (by rw [hself]; exact hnone) (by rw [hself]; exact hu) _ _, hidle₁⟩
  | some u =>
    obtain ⟨hquiet, htaken⟩ : ¬ w.CallsFail (writeCalls bufs rs).1 ∧ ¬ Unfinished (writeCalls bufs rs).1 := by
      rcases hwaits i hi with hopen | hnone | htaken
      · rw [hclosed] at hopen
        cases hopen
      · rw [hu] at hnone
        cases hnone
      · exact htaken
    have hw₁' : Sound w₁ := by
      have hnumber : Moves (fun _ _ => True) w w.numberOp := ⟨.number, trivial, .number⟩
      have hdata : Moves (fun _ _ => True) w.numberOp w₁ := ⟨.data i, trivial, .data (.tx _ _ _)⟩
      exact sound_move (sound_move hw hnumber) hdata
    have htx : (w₁.impls i).txBuffers = bufs := by rw [hself]
    obtain ⟨w', hok, hkept⟩ := doWrite_taken w.nextHandler rs hw₁' hreg (by rw [hself]; exact hnone)
      (by rw [hself]; exact hu) (by rw [htx]; exact hquiet) (by rw [htx]; exact htaken)
    refine ⟨w', hok, fun j hc slot => ?_⟩
    rw [(hkept j).1] at hc
    rw [(hkept j).2]
    exact hidle₁ j hc slot

/-- Every event keeps the slots of closed sockets empty, and finds them so where it asserts that they are. -/
theorem waitsOpen_step {w : World} {ev : Event} (hw : Sound w) (hidle : ClosedIdle w) (hen : w.Enabled ev)
    (hwaits : w.WaitsOpen ev) :
    (∀ w', w.step ev = .ok w' → ClosedIdle w') ∧ ∀ slot, w.step ev ≠ .error (.assertion (closedSite slot)) := by
  by_cases hopen : w.StartsOpen ev
  · exact ⟨fun _ => closedIdle_step hw hidle hen hopen, step_ne_closedSite hw hidle hen hopen⟩
  · -- What is left is a write on a closed socket.
    obtain ⟨v, bufs, rs, i, rfl, hi, hclosed⟩ : ∃ v bufs rs i, ev = .asyncWriteSome v bufs rs ∧
        (w.sockets v).impl = some i ∧ (w.impls i).closed = true := by
      cases ev with
      | asyncWriteSome v bufs rs =>
        simp only [StartsOpen, not_forall] at hopen
        obtain ⟨i, hi, hclosed⟩ := hopen
        exact ⟨v, bufs, rs, i, rfl, hi, by simpa using hclosed⟩
      | asyncConnect | asyncAccept => exact absurd hwaits hopen
      | _ => exact absurd trivial hopen
    obtain ⟨w', hs, hidle'⟩ := asyncWriteSome_closed hw hidle hi hclosed hwaits
    refine ⟨fun w'' hs' => ?_, fun slot hfault => ?_⟩
    · rw [hs] at hs'
      cases hs'
      exact hidle'
    · rw [hs] at hfault
      cases hfault

/-- **A closed socket has no pending operation**, in every run that leaves no connect, accept or
write waiting on a closed one; and the assertions of `close_with_error` about the slots of a closed
socket hold, also where it is re-entered. -/
theorem closed_idle {w : World} (h : Reachable (fun w ev => w.Enabled ev ∧ w.WaitsOpen ev) step {} w) :
    (∀ i, (w.impls i).closed = true → ∀ slot, (w.impls i).handlers slot = none) ∧
    ∀ ev, w.Enabled ev → w.WaitsOpen ev → ∀ slot, w.step ev ≠ .error (.assertion (closedSite slot)) := by
  obtain ⟨hw, hidle⟩ : Sound w ∧ ClosedIdle w := by
    refine h.invariant (fun w => Sound w ∧ ClosedIdle w) (fun w ev w' hw hok hs => ?_)
      ⟨sound_init, by simp [ClosedIdle]⟩
    exact ⟨sound_step hw.1 hok.1 hs, (waitsOpen_step hw.1 hw.2 hok.1 hok.2).1 w' hs⟩
  exact ⟨hidle, fun ev hen hs => (waitsOpen_step hw hidle hen hs).2⟩

/-- A connected socket reaches the end of its stream with a write pending: the read that finds it
closes the socket, and both operations complete. So does a write that libutp then still takes. -/
theorem closed_idle_eof :
    ∃ w, Run (fun w ev => w.Enabled ev ∧ w.WaitsOpen ev) step {}
        [.socket, .bind 0, .asyncConnect 0 default [] [], .stateChange 0 .connect [],
          .asyncWriteSome 0 [[1, 2, 3]] [], .stateChange 0 .eof [], .asyncReadSome 0 [[0]],
          .asyncWriteSome 0 [[4]] [{ accepted := 1 }]] w ∧
      (w.impls 0).closed = true ∧ (w.impls 0).handlers .send = none ∧ w.posted.length = 4 := by
  obtain ⟨w, hrun, hclosed, hlen⟩ := exists_run (fun w ev => Enabled w ev ∧ WaitsOpen w ev) step {}
    [.socket, .bind 0, .asyncConnect 0 default [] [], .stateChange 0 .connect [],
      .asyncWriteSome 0 [[1, 2, 3]] [], .stateChange 0 .eof [], .asyncReadSome 0 [[0]],
      .asyncWriteSome 0 [[4]] [{ accepted := 1 }]]
    (fun w => (w.impls 0).closed = true ∧ w.posted.length = 4) (by decide)
  exact ⟨w, hrun, hclosed, (closed_idle ⟨_, hrun⟩).1 0 hclosed .send, hlen⟩

/-- A write on a socket closed at the end of its stream: it waits in its slot, `socket::close` does
not complete it, and the next send that fails finds the assertion of `close_with_error` broken. -/
theorem closed_with_write :
    ∃ w, Run Enabled step {}
        [.socket, .bind 0, .asyncConnect 0 default [] [], .stateChange 0 .connect [], .stateChange 0 .eof [],
          .asyncReadSome 0 [[0]], .asyncWriteSome 0 [[1, 2, 3]] []] w ∧
      (w.impls 0).closed = true ∧ w.Pending 0 .send ∧
      (∃ w', w.step (.close 0) = .ok w' ∧ w'.Pending 0 .send) ∧
      w.step (.sendto (.other 5)) = .error (.assertion .closedSend) :=
  ⟨_, run_of_exec rfl, rfl, by decide, ⟨_, rfl, by decide⟩, rfl⟩

end World

end AsioUtp
