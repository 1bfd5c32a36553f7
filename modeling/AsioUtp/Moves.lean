/-
What the functions of `socket_impl` can do to the world, said once.

A `Move` is an update that no foreign code can interrupt: an operation takes
its slot, a handler is posted, a socket is shut. Every function of the model
is a sequence of moves with calls into libutp in between, which are moves
again; so what every move keeps holds wherever the program stops, at the end
of an event, inside a call into libutp, or at a fault. The lemmas
`*_traces` take the functions apart, once for all the invariants.

Moves carry labels, and `ok` says which labels are admitted in which world:
an invariant that only holds while, say, no operation starts on a closed
socket is one of the moves admitted so.
-/
import AsioUtp.Socket
import AsioUtp.ContextFacts

namespace AsioUtp

namespace World

open Machine Relation

/-! ## Posting and shutting -/

@[simp] theorem setImpl_impls (w : World) (i : Nat) (s : SocketImpl) :
    (w.setImpl i s).impls = Function.update w.impls i s := rfl

@[simp] theorem setUtp_utp (w : World) (u : Nat) (s : UtpSocket) :
    (w.setUtp u s).utp = Function.update w.utp u s := rfl

@[simp] theorem setSocket_sockets (w : World) (v : Nat) (s : Socket) :
    (w.setSocket v s).sockets = Function.update w.sockets v s := rfl

@[simp] theorem setHandler_handlers (s : SocketImpl) (slot : Slot) (h : Option Handler) :
    (s.setHandler slot h).handlers = Function.update s.handlers slot h := rfl

/-- What a change of one impl leaves of every impl. -/
theorem update_field {α β : Type} (f : β → α) {g : Nat → β} {i : Nat} {s : β} (h : f s = f (g i)) (j : Nat) :
    f (Function.update g i s j) = f (g j) := by
  by_cases hji : j = i
  · subst hji
    rw [Function.update_self, h]
  · rw [Function.update_of_ne hji]

/-- What closing the socket posts, in order. -/
def closings (s : SocketImpl) (i : Nat) (ec : ErrorCode) : List Completion :=
  [Slot.accept, .connect, .recv, .send].filterMap fun slot =>
    (s.handlers slot).map fun h => { impl := some i, slot, handler := h, ec }

theorem mem_closings {s : SocketImpl} {i : Nat} {ec : ErrorCode} {c : Completion} :
    c ∈ closings s i ec ↔ ∃ slot x, c = { impl := some i, slot, handler := x, ec } ∧ s.handlers slot = some x := by
  simp only [closings, List.mem_filterMap, Option.map_eq_some_iff]
  constructor
  · rintro ⟨slot, -, x, hx, rfl⟩
    exact ⟨slot, x, rfl, hx⟩
  · rintro ⟨slot, x, rfl, hx⟩
    exact ⟨slot, by cases slot <;> simp, x, hx, rfl⟩

theorem postIfSet_eq (w : World) (i : Nat) (slot : Slot) (ec : ErrorCode) :
    w.postIfSet i slot ec =
      { w.setImpl i ((w.impls i).setHandler slot none) with
        posted := w.posted ++
          (((w.impls i).handlers slot).map fun h =>
            ({ impl := some i, slot, handler := h, ec } : Completion)).toList } := by
  unfold postIfSet
  split
  · next h =>
    have hsame : (w.impls i).setHandler slot none = w.impls i := by
      unfold SocketImpl.setHandler
      rw [← h, Function.update_eq_self]
    simp [hsame, setImpl, h]
  · next h => simp [post, setImpl, h]

theorem shut_eq (w : World) (i : Nat) (ec : ErrorCode) :
    w.shut i ec =
      { w.setImpl i { w.impls i with closed := true, handlers := fun _ => none } with
        posted := w.posted ++ closings (w.impls i) i ec } := by
  have hnone : ∀ f : Slot → Option Handler,
      Function.update (Function.update (Function.update (Function.update f .accept none) .connect none)
        .recv none) .send none = fun _ => none := by
    intro f
    funext slot
    cases slot <;> simp [Function.update]
  simp only [shut, postIfSet_eq, setImpl, Function.update_self, Function.update_idem, SocketImpl.setHandler, hnone]
  cases ha : (w.impls i).handlers .accept <;> cases hc : (w.impls i).handlers .connect <;>
    cases hr : (w.impls i).handlers .recv <;> cases hs : (w.impls i).handlers .send <;>
    simp [closings, ha, hc, hr, hs]

/-- `shut`, and `utp_close` on the socket's `utp_socket` unless it is at its end already. -/
def shutUtp (w : World) (i : Nat) (ec : ErrorCode) : World :=
  match (w.impls i).utpSocket with
  | some u =>
    if (w.impls i).gotEof then w.shut i ec
    else (w.shut i ec).setUtp u { w.utp u with closes := (w.utp u).closes + 1 }
  | none => w.shut i ec

/-! ## Moves -/

inductive Label
  /-- An operation takes its slot: a read or a write, a connect, an accept. -/
  | setup (i : Nat) (slot : Slot) (h : Handler)
  | connect (i : Nat) (h : Handler)
  | waiting (i : Nat) (h : Handler)
  /-- A write is taken out of its slot to be resumed. -/
  | take (i : Nat)
  /-- A handler is posted from its slot; a handler that was in none. -/
  | post (i : Nat) (slot : Slot)
  | direct (c : Completion)
  /-- `close_with_error` before and after `utp_close`. -/
  | shut (i : Nat) (ec : ErrorCode)
  | finish (i : Nat)
  /-- What is to be written and has been, and what has been received. -/
  | data (i : Nat)
  | received (i : Nat)
  | wrote (u : Nat)
  | eof (i : Nat)
  /-- libutp makes a socket for a connection that arrives, and hands it over. -/
  | create
  | accept (i u : Nat)
  /-- libutp destroys a socket, one that is attached and one that is not. -/
  | destroy (i u : Nat)
  | die (u : Nat)
  | decrement (i : Nat)
  | number
  | socket
  | bind (v : Nat)
  | moveConstruct (v : Nat)
  | release (v : Nat)
  | assign (v v' : Nat)
  | run (c : Completion)
  | ran
  | loop (ev : Context.Event)

/-- The impl with other data: buffers and byte counts. -/
structure SameButData (s s' : SocketImpl) : Prop where
  utpSocket : s'.utpSocket = s.utpSocket
  owner : s'.owner = s.owner
  closed : s'.closed = s.closed
  gotEof : s'.gotEof = s.gotEof
  handlers : s'.handlers = s.handlers
  decrementClose : s'.decrementClose = s.decrementClose

/-- The impl with other data to send. -/
structure SameButSent (s s' : SocketImpl) : Prop extends SameButData s s' where
  rxBufferQueue : s'.rxBufferQueue = s.rxBufferQueue
  rxBuffers : s'.rxBuffers = s.rxBuffers

/-- The impl with other data received. -/
structure SameButReceived (s s' : SocketImpl) : Prop extends SameButData s s' where
  txBuffers : s'.txBuffers = s.txBuffers
  bytesSent : s'.bytesSent = s.bytesSent

theorem SameButReceived.rx (s : SocketImpl) (bufs : List (List UInt8)) (queue : List Buf) :
    SameButReceived s { s with rxBuffers := bufs, rxBufferQueue := queue } :=
  ⟨⟨rfl, rfl, rfl, rfl, rfl, rfl⟩, rfl, rfl⟩

theorem SameButSent.tx (s : SocketImpl) (bufs : List (List UInt8)) (n : Nat) :
    SameButSent s { s with txBuffers := bufs, bytesSent := n } := ⟨⟨rfl, rfl, rfl, rfl, rfl, rfl⟩, rfl, rfl⟩

inductive Move : World → Label → World → Prop
  | setup {w : World} {i : Nat} {slot : Slot} {h : Handler} {c : Context} :
      i ∈ w.registeredSockets → (w.impls i).handlers slot = none → slot ≠ .connect → slot ≠ .accept →
      (slot = .recv → (w.impls i).closed = false) → w.ctx.incrementOutstandingOps = .ok c →
      Move w (.setup i slot h)
        (({ w with ctx := c } : World).setImpl i ((w.impls i).setHandler slot (some { h with after := true })))
  | connect {w : World} {i : Nat} {h : Handler} {ep : Endpoint} {onClose : List ErrorCode} {c : Context} :
      i ∈ w.registeredSockets → (w.impls i).utpSocket = none → w.ctx.incrementOutstandingOps = .ok c →
      Move w (.connect i h)
        ((({ w with ctx := c, created := w.created + 1 } : World).setUtp w.created
          { alive := true, userdata := some i, peer := ep, onClose }).setImpl i
            { (w.impls i).setHandler .connect (some { h with after := true }) with utpSocket := some w.created })
  | waiting {w : World} {i : Nat} {h : Handler} {c : Context} :
      i ∈ w.registeredSockets → (w.impls i).handlers .accept = none → i ∉ w.acceptingSockets →
      w.ctx.incrementOutstandingOps = .ok c →
      Move w (.waiting i h)
        (({ w with ctx := c, acceptingSockets := w.acceptingSockets ++ [i] } : World).setImpl i
          ((w.impls i).setHandler .accept (some { h with after := true })))
  | take {w : World} {i : Nat} {h : Handler} : (w.impls i).handlers .send = some h →
      Move w (.take i) (w.setImpl i ((w.impls i).setHandler .send none))
  | post {w : World} {i : Nat} {slot : Slot} {h : Handler} {ec : ErrorCode} {size : Nat} {data : List UInt8} :
      (w.impls i).handlers slot = some h → slot ≠ .accept →
      Move w (.post i slot) ((w.setImpl i ((w.impls i).setHandler slot none)).post
        { impl := some i, slot, handler := h, ec, size, data })
  | direct {w : World} {c : Completion} : Move w (.direct c) (w.post c)
  | shut {w : World} {i : Nat} {ec : ErrorCode} : i ∈ w.registeredSockets → (w.impls i).closed = false →
      (∀ u, (w.impls i).utpSocket = some u → (w.impls i).gotEof = false → (w.utp u).alive = true) →
      Move w (.shut i ec) (w.shutUtp i ec)
  | finish {w w' : World} {i : Nat} : (w.impls i).closed = true → w.finishClose i = .ok w' → Move w (.finish i) w'
  | data {w : World} {i : Nat} {s : SocketImpl} : SameButSent (w.impls i) s → Move w (.data i) (w.setImpl i s)
  | received {w : World} {i : Nat} {s : SocketImpl} : SameButReceived (w.impls i) s →
      Move w (.received i) (w.setImpl i s)
  | wrote {w : World} {u : Nat} {bytes : List UInt8} :
      Move w (.wrote u) (w.setUtp u { w.utp u with written := bytes })
  | eof {w : World} {i : Nat} : Move w (.eof i) (w.setImpl i { w.impls i with gotEof := true })
  | create {w : World} {ep : Endpoint} {onClose : List ErrorCode} :
      Move w .create
        (({ w with created := w.created + 1 } : World).setUtp w.created { alive := true, peer := ep, onClose })
  | accept {w : World} {i u : Nat} {rest : List Nat} {h : Handler} : w.acceptingSockets = i :: rest →
      (w.impls i).utpSocket = none → (w.impls i).handlers .accept = some h → (w.utp u).alive = true →
      u < w.created → (w.utp u).userdata = none → (∀ j, (w.impls j).utpSocket ≠ some u) → (w.utp u).closes = 0 →
      Move w (.accept i u)
        (((({ w with acceptingSockets := rest } : World).setUtp u { w.utp u with userdata := some i }).setImpl i
          { (w.impls i).setHandler .accept none with utpSocket := some u }).post
            { impl := some i, slot := .accept, handler := h, ec := .success })
  | destroy {w : World} {i u : Nat} : (w.utp u).alive = true → (w.utp u).userdata = some i →
      (w.impls i).utpSocket ≠ none →
      ((w.impls i).closed = true → ∀ slot, (w.impls i).handlers slot = none) →
      Move w (.destroy i u)
        { (w.setUtp u { w.utp u with alive := false }).setImpl i
            { w.impls i with utpSocket := none, closed := true, handlers := fun _ => none } with
          posted := w.posted ++ closings (w.impls i) i .connectionAborted }
  | die {w : World} {u : Nat} : (w.utp u).userdata = none →
      Move w (.die u) (w.setUtp u { w.utp u with alive := false })
  | decrement {w : World} {i : Nat} : (w.impls i).decrementClose = true →
      Move w (.decrement i)
        (({ w with ctx := w.ctx.decrementOutstandingOps } : World).setImpl i
          { w.impls i with decrementClose := false })
  | number {w : World} : Move w .number w.numberOp
  | socket {w : World} : Move w .socket { w with made := w.made + 1 }
  | bind {w : World} {v : Nat} : v < w.made → w.ctx.alive = true → Move w (.bind v) (w.bind v)
  | moveConstruct {w : World} {v : Nat} : v < w.made → Move w (.moveConstruct v) (w.moveConstruct v)
  | release {w : World} {v : Nat} : (∀ i, (w.sockets v).impl = some i → (w.impls i).closed = true) →
      Move w (.release v) (w.setSocket v {})
  | assign {w : World} {v v' : Nat} : (w.sockets v).impl = none → (w.sockets v').impl = none →
      Move w (.assign v v') ((w.setSocket v' {}).setSocket v (w.sockets v'))
  | run {w : World} {c : Completion} : c ∈ w.posted → Move w (.run c) (w.run c)
  | ran {w : World} : Move w .ran w.ran
  | loop {w : World} {ev : Context.Event} {c : Context} : w.ctx.Enabled ev → w.ContextEnabled ev →
      w.ctx.step ev = .ok c → Move w (.loop ev) { w with ctx := c }

/-- The moves `ok` admits. -/
def Moves (ok : World → Label → Prop) (w w' : World) : Prop := ∃ l, ok w l ∧ Move w l w'

theorem Moves.mono {ok ok' : World → Label → Prop} (h : ∀ w l, ok w l → ok' w l) (w w' : World)
    (hm : Moves ok w w') : Moves ok' w w' := by
  obtain ⟨l, hl, hm⟩ := hm
  exact ⟨l, h w l hl, hm⟩

/-- The moves of closing sockets. -/
def Label.Closing : Label → Prop
  | .shut _ _ | .finish _ => True
  | _ => False

/-- The faults that say something about the world they are raised in. -/
def Raises (w : World) : Fault → Prop
  | .assertion .closedAccept => ∃ i, (w.impls i).closed = true ∧ w.Pending i .accept
  | .assertion .closedConnect => ∃ i, (w.impls i).closed = true ∧ w.Pending i .connect
  | .assertion .closedRecv => ∃ i, (w.impls i).closed = true ∧ w.Pending i .recv
  | .assertion .closedSend => ∃ i, (w.impls i).closed = true ∧ w.Pending i .send
  | .assertion .onAcceptSocket => ∃ i rest, w.acceptingSockets = i :: rest ∧ (w.impls i).utpSocket ≠ none
  | .assertion .onAcceptHandler => ∃ i rest, w.acceptingSockets = i :: rest ∧ ¬ w.Pending i .accept
  | .deadSocket => ∃ i u, (w.impls i).utpSocket = some u ∧ (w.utp u).alive = false
  | .nullPointer => False
  | .nullSocket => ∃ i u, (w.utp u).alive = true ∧ (w.utp u).userdata = some i ∧ (w.impls i).utpSocket = none
  | .nullContext => False
  | _ => True

/-- The assertion of `close_with_error` about a slot of a closed socket. -/
def closedSite : Slot → Site
  | .connect => .closedConnect
  | .accept => .closedAccept
  | .recv => .closedRecv
  | .send => .closedSend

theorem raises_closedSite {w : World} {i : Nat} {slot : Slot} (hc : (w.impls i).closed = true)
    (h : w.Pending i slot) : Raises w (.assertion (closedSite slot)) := by
  cases slot <;> exact ⟨i, hc, h⟩

/-! ## Closing -/

/-- The moves of closing sockets alone. -/
abbrev Closes : World → World → Prop := Moves fun _ l => l.Closing

theorem dropOwner_eq (w : World) (i : Nat) :
    w.dropOwner i = { w with
      impls := Function.update w.impls i { w.impls i with owner := none }
      sockets := (w.impls i).owner.elim w.sockets fun v =>
        Function.update w.sockets v { w.sockets v with impl := none } } := by
  unfold dropOwner
  split
  · next v h => simp [setImpl, setSocket, h]
  · next h =>
    have hsame : ({ w.impls i with owner := none } : SocketImpl) = w.impls i := by rw [← h]
    simp [hsame, h]

theorem finishClose_ok_iff {w w' : World} {i : Nat} :
    w.finishClose i = .ok w' ↔ (w.impls i).decrementClose = false ∧
      ∃ c, w.ctx.incrementOutstandingOps = .ok c ∧ w' = { w with
        ctx := c
        impls := Function.update w.impls i { w.impls i with owner := none, decrementClose := true }
        sockets := (w.impls i).owner.elim w.sockets fun v =>
          Function.update w.sockets v { w.sockets v with impl := none } } := by
  unfold finishClose
  rw [dropOwner_eq]
  simp only [Except.bind_ok_iff, Except.require_ok_iff, Except.pure_ok_iff, setImpl, Function.update_self,
    Function.update_idem]
  constructor
  · rintro ⟨-, hd, c, hc, rfl⟩
    exact ⟨hd, c, hc, rfl⟩
  · rintro ⟨hd, c, hc, rfl⟩
    exact ⟨(), hd, c, hc, rfl⟩

theorem finishClose_error {w : World} {i : Nat} {f : Fault} (h : w.finishClose i = .error f) :
    f = .assertion .decrementClose ∧ (w.impls i).decrementClose = true := by
  unfold finishClose at h
  rw [dropOwner_eq] at h
  simp only [Except.bind_error_iff, Except.require_error_iff, Function.update_self] at h
  rcases h with ⟨hd, rfl⟩ | ⟨-, -, hc | ⟨c, -, h⟩⟩
  · exact ⟨rfl, by simpa using hd⟩
  · obtain ⟨t, m, heq⟩ := Context.increment_spec w.ctx
    rw [heq] at hc
    cases hc
  · cases h

theorem shutUtp_eq (w : World) (i : Nat) (ec : ErrorCode) :
    ∃ utp, w.shutUtp i ec =
      { w with
        impls := Function.update w.impls i { w.impls i with closed := true, handlers := fun _ => none }
        posted := w.posted ++ closings (w.impls i) i ec
        utp := utp } ∧
      ∀ u, utp u = w.utp u ∨
        (w.impls i).utpSocket = some u ∧ utp u = { w.utp u with closes := (w.utp u).closes + 1 } := by
  unfold shutUtp
  split
  · next u hu =>
    split
    · exact ⟨w.utp, by rw [shut_eq]; rfl, fun _ => .inl rfl⟩
    · refine ⟨Function.update w.utp u { w.utp u with closes := (w.utp u).closes + 1 }, ?_, fun v => ?_⟩
      · rw [shut_eq]
        rfl
      · by_cases hv : v = u
        · subst hv
          exact .inr ⟨hu, by simp⟩
        · exact .inl (by simp [hv])
  · exact ⟨w.utp, by rw [shut_eq]; rfl, fun _ => .inl rfl⟩

/-- Closing registers no socket and opens none. -/
theorem Closes.keeps_closed {w w' : World} (h : Closes w w') :
    w'.registeredSockets = w.registeredSockets ∧ ∀ j, (w.impls j).closed = true → (w'.impls j).closed = true := by
  obtain ⟨l, hl, h⟩ := h
  cases h with
  | @shut i ec _ _ _ =>
    obtain ⟨utp, heq, -⟩ := shutUtp_eq w i ec
    rw [heq]
    refine ⟨rfl, fun j hj => ?_⟩
    by_cases hji : j = i
    · subst hji
      simp
    · simpa [hji] using hj
  | finish hc hf =>
    obtain ⟨-, c, -, rfl⟩ := finishClose_ok_iff.1 hf
    exact ⟨rfl, fun j hj => (update_field SocketImpl.closed (by rfl) j).trans hj⟩
  | _ => exact hl.elim

/-- A socket stays closed through what closing others does. -/
theorem closed_after {w w' : World} {i : Nat} (hc : (w.impls i).closed = true) (h : ReflTransGen Closes w w') :
    (w'.impls i).closed = true := by
  induction h with
  | refl => exact hc
  | tail _ hm ih => exact hm.keeps_closed.2 i ih

theorem shutUtp_closed (w : World) (i : Nat) (ec : ErrorCode) : ((w.shutUtp i ec).impls i).closed = true := by
  obtain ⟨utp, heq, -⟩ := shutUtp_eq w i ec
  rw [heq]
  simp

/-- Closing gives no `socket` a `_socket_impl`. -/
theorem sockets_after {w w' : World} {v i : Nat} (h : ReflTransGen Closes w w')
    (hi : (w'.sockets v).impl = some i) : (w.sockets v).impl = some i := by
  induction h with
  | refl => exact hi
  | @tail w₁ w₂ _ hm ih =>
    refine ih ?_
    obtain ⟨l, hl, hm⟩ := hm
    cases hm with
    | @shut j ec _ _ _ =>
      obtain ⟨utp, heq, -⟩ := shutUtp_eq w₁ j ec
      rw [heq] at hi
      exact hi
    | @finish _ j hc hf =>
      obtain ⟨-, c, -, rfl⟩ := finishClose_ok_iff.1 hf
      dsimp only at hi
      cases ho : (w₁.impls j).owner with
      | none => simpa [ho] using hi
      | some v' =>
        simp only [ho, Option.elim_some] at hi
        by_cases hv : v = v'
        · subst hv
          simp at hi
        · rwa [Function.update_of_ne hv] at hi
    | _ => exact hl.elim

/-- `callback_sendto` moves as the closing of each socket does. -/
theorem callbackSendtoWith_traces {R : World → World → Prop} (I : World → Prop)
    (keep : ∀ s s', I s → R s s' → I s') (hreg : ∀ s s', R s s' → s'.registeredSockets = s.registeredSockets)
    {close : World → Nat → ErrorCode → Except Fault World}
    (hclose : ∀ w i ec, I w → i ∈ w.registeredSockets → Traces R Raises id w (close w i ec)) {w : World} (hw : I w)
    (ec : ErrorCode) : Traces R Raises id w (callbackSendtoWith close w ec) := by
  unfold callbackSendtoWith
  split
  · refine Traces.foldlM (fun w' => I w' ∧ w'.registeredSockets = w.registeredSockets)
      (fun s s' hs h => ⟨keep s s' hs.1 h, (hreg s s' h).trans hs.2⟩) ⟨hw, rfl⟩ fun s i hi hs => hclose s i ec hs.1 ?_
    rw [hs.2]
    exact hi
  · exact Traces.done rfl

/-- The same where nothing is kept but what closing keeps. -/
theorem callbackSendtoWith_closes {close : World → Nat → ErrorCode → Except Fault World}
    (hclose : ∀ w i ec, i ∈ w.registeredSockets → Traces Closes Raises id w (close w i ec)) (w : World)
    (ec : ErrorCode) : Traces Closes Raises id w (callbackSendtoWith close w ec) :=
  callbackSendtoWith_traces (fun _ => True) (fun _ _ _ _ => trivial) (fun _ _ h => h.keeps_closed.1)
    (fun w i ec _ hi => hclose w i ec hi) trivial ec

/-- Without a `utp_socket` to close, closing an open socket is the one move. -/
theorem closeWithErrorDepth_simple (depth : Nat) {w : World} {i : Nat} (ec : ErrorCode)
    (hopen : (w.impls i).closed = false) (h : (w.impls i).utpSocket = none ∨ (w.impls i).gotEof = true) :
    closeWithErrorDepth (depth + 1) w i ec = .ok (w.shutUtp i ec) ∧ w.shutUtp i ec = w.shut i ec := by
  have hutp : ((w.shut i ec).impls i).utpSocket = (w.impls i).utpSocket := by
    rw [shut_eq]
    simp
  unfold shutUtp
  rw [closeWithErrorDepth]
  simp only [hopen, Bool.false_eq_true, if_false, hutp]
  rcases h with h | h
  · simp [h]
  · cases (w.impls i).utpSocket <;> simp [h]

/-- With one, its sends are made in between. -/
theorem closeWithErrorDepth_utp {depth : Nat} {w : World} {i u : Nat} (ec : ErrorCode)
    (hopen : (w.impls i).closed = false) (hu : (w.impls i).utpSocket = some u) (heof : (w.impls i).gotEof = false) :
    closeWithErrorDepth (depth + 1) w i ec =
      (do Except.require ((w.utp u).alive = true) .deadSocket
          let w' ← (w.utp u).onClose.foldlM (callbackSendtoWith (closeWithErrorDepth depth)) (w.shutUtp i ec)
          w'.finishClose i) := by
  have hutp : ((w.shut i ec).impls i).utpSocket = some u ∧ (w.shut i ec).utp = w.utp := by
    rw [shut_eq]
    exact ⟨by simpa using hu, rfl⟩
  have hshut : (w.shut i ec).setUtp u { w.utp u with closes := (w.utp u).closes + 1 } = w.shutUtp i ec := by
    simp only [shutUtp, hu, heof]
    rfl
  have honClose : ((w.shutUtp i ec).utp u).onClose = (w.utp u).onClose := by simp [← hshut]
  rw [closeWithErrorDepth]
  simp only [hopen, Bool.false_eq_true, if_false, hutp.1, heof, utpClose, hutp.2, bind_assoc, pure_bind, hshut,
    honClose]

/-- `close_with_error` on an open socket, given what the sends inside `utp_close` do. -/
theorem closeWithErrorDepth_open {ok : World → Label → Prop} {depth : Nat} {w : World} {i : Nat} {ec : ErrorCode}
    (hi : i ∈ w.registeredSockets) (hopen : (w.impls i).closed = false) (hshut : ok w (.shut i ec))
    (hfinish : ∀ w', ReflTransGen Closes (w.shutUtp i ec) w' → ok w' (.finish i))
    (hsends : ∀ u, (w.impls i).utpSocket = some u → (w.impls i).gotEof = false →
      Traces (Moves fun w l => ok w l ∧ l.Closing) Raises id (w.shutUtp i ec)
        ((w.utp u).onClose.foldlM (callbackSendtoWith (closeWithErrorDepth depth)) (w.shutUtp i ec))) :
    Traces (Moves ok) Raises id w (closeWithErrorDepth (depth + 1) w i ec) := by
  by_cases hutp : (w.impls i).utpSocket = none ∨ (w.impls i).gotEof = true
  · rw [(closeWithErrorDepth_simple depth ec hopen hutp).1]
    refine Traces.move (g := id) ⟨.shut i ec, hshut, .shut hi hopen fun u hu heof => ?_⟩
    rcases hutp with h | h
    · rw [h] at hu
      cases hu
    · rw [h] at heof
      cases heof
  · obtain ⟨hne, heof⟩ := not_or.1 hutp
    obtain ⟨u, hu⟩ := Option.ne_none_iff_exists'.1 hne
    have heof : (w.impls i).gotEof = false := by simpa using heof
    rw [closeWithErrorDepth_utp ec hopen hu heof]
    refine Traces.require (fun hd => ⟨i, u, hu, by simpa using hd⟩) fun halive => ?_
    have hmove : Moves ok w (w.shutUtp i ec) := by
      refine ⟨.shut i ec, hshut, .shut hi hopen fun u' hu' _ => ?_⟩
      rw [hu] at hu'
      cases hu'
      exact halive
    refine Traces.after hmove ?_
    have htr := hsends u hu heof
    refine Traces.bind (g := id) (fun _ => True) (fun _ _ _ _ => trivial) trivial
      (htr.mono (Moves.mono fun _ _ hl => hl.1) fun _ _ h => h) fun w' _ heq => ?_
    have hcloses : ReflTransGen Closes (w.shutUtp i ec) w' := by
      rw [heq] at htr
      exact ReflTransGen.mono (Moves.mono fun _ _ hl => hl.2) _ _ htr
    cases hf : w'.finishClose i with
    | ok w'' =>
      exact Traces.move (g := id)
        ⟨.finish i, hfinish w' hcloses, .finish (closed_after (shutUtp_closed w i ec) hcloses) hf⟩
    | error f =>
      obtain ⟨rfl, -⟩ := finishClose_error hf
      exact Traces.fault trivial

/-- The assertions at the top of `close_with_error`, on a closed socket. -/
theorem closeWithErrorDepth_closed (depth : Nat) {w : World} {i : Nat} (hc : (w.impls i).closed = true)
    (ec : ErrorCode) :
    (∀ slot, (w.impls i).handlers slot = none) ∧ closeWithErrorDepth (depth + 1) w i ec = .ok w ∨
      ∃ slot, w.Pending i slot ∧ closeWithErrorDepth (depth + 1) w i ec = .error (.assertion (closedSite slot)) := by
  rw [closeWithErrorDepth, if_pos hc]
  simp only [Except.require, Pending]
  by_cases ha : (w.impls i).handlers .accept = none
  · by_cases hn : (w.impls i).handlers .connect = none
    · by_cases hr : (w.impls i).handlers .recv = none
      · by_cases hs : (w.impls i).handlers .send = none
        · refine .inl ⟨fun slot => by cases slot <;> assumption, ?_⟩
          simp [ha, hn, hr, hs, pure, Except.pure]
        · exact .inr ⟨.send, hs, by simp [ha, hn, hr, hs, closedSite]⟩
      · exact .inr ⟨.recv, hr, by simp [ha, hn, hr, closedSite]⟩
    · exact .inr ⟨.connect, hn, by simp [ha, hn, closedSite]⟩
  · exact .inr ⟨.accept, ha, by simp [ha, closedSite]⟩

/-- **`close_with_error` to any depth.** `I` is what the moves keep, and what admits them in turn. -/
theorem closeWithErrorDepth_tracesOf {ok : World → Label → Prop} (I : World → Prop)
    (keep : ∀ w w', I w → Moves (fun w l => ok w l ∧ l.Closing) w w' → I w')
    (hstart : ∀ w i ec, I w → i ∈ w.registeredSockets → (w.impls i).closed = false →
      ok w (.shut i ec) ∧ I (w.shutUtp i ec))
    (hfinish : ∀ w i ec w', I w → i ∈ w.registeredSockets → (w.impls i).closed = false →
      ReflTransGen Closes (w.shutUtp i ec) w' → ok w' (.finish i))
    (depth : Nat) {w : World} (i : Nat) (ec : ErrorCode) (hw : I w) (hi : i ∈ w.registeredSockets) :
    Traces (Moves fun w l => ok w l ∧ l.Closing) Raises id w (closeWithErrorDepth depth w i ec) := by
  induction depth generalizing w i ec with
  | zero => exact Traces.fault trivial
  | succ depth ih =>
    cases hc : (w.impls i).closed with
    | true =>
      rcases closeWithErrorDepth_closed depth hc ec with ⟨-, heq⟩ | ⟨slot, hp, heq⟩
      · rw [heq]
        exact Traces.done rfl
      · rw [heq]
        exact Traces.fault (raises_closedSite hc hp)
    | false =>
      obtain ⟨hshut, hI⟩ := hstart w i ec hw hi hc
      refine closeWithErrorDepth_open hi hc ⟨hshut, trivial⟩
        (fun w' hcloses => ⟨hfinish w i ec w' hw hi hc hcloses, trivial⟩) fun u _ _ => ?_
      refine Traces.mono (R := Moves fun w l => ok w l ∧ l.Closing) (Moves.mono fun _ _ hl => ⟨hl, hl.2⟩)
        (fun _ _ h => h) ?_
      refine Traces.foldlM I keep hI fun s ec' _ hs => ?_
      refine callbackSendtoWith_traces I keep (fun w w' h => ?_) (fun w i ec hw hi => ih i ec hw hi) hs ec'
      have hcloses : Closes w w' := h.mono fun _ _ hl => hl.2
      exact hcloses.keeps_closed.1

theorem closeWithErrorDepth_traces (depth : Nat) (w : World) (i : Nat) (ec : ErrorCode)
    (hi : i ∈ w.registeredSockets) : Traces Closes Raises id w (closeWithErrorDepth depth w i ec) := by
  have htr : Traces (Moves fun _ l => True ∧ l.Closing) Raises id w (closeWithErrorDepth depth w i ec) :=
    closeWithErrorDepth_tracesOf (fun _ => True) (fun _ _ _ _ => trivial) (fun _ _ _ _ _ _ => ⟨trivial, trivial⟩)
      (fun _ _ _ _ _ _ _ _ => trivial) depth i ec trivial hi
  exact htr.mono (Moves.mono fun _ _ hl => hl.2) fun _ _ h => h

theorem closeWithError_closes {w : World} {i : Nat} (hi : i ∈ w.registeredSockets) (ec : ErrorCode) :
    Traces Closes Raises id w (w.closeWithError i ec) :=
  closeWithErrorDepth_traces _ w i ec hi

/-- How `close_with_error` comes to an answer. -/
theorem closeWithErrorDepth_ok {depth : Nat} {w w' : World} {i : Nat} {ec : ErrorCode}
    (h : closeWithErrorDepth (depth + 1) w i ec = .ok w') :
    ((w.impls i).closed = true ∧ (∀ slot, (w.impls i).handlers slot = none) ∧ w' = w) ∨
    ((w.impls i).closed = false ∧ ((w.impls i).utpSocket = none ∨ (w.impls i).gotEof = true) ∧
      w' = w.shutUtp i ec) ∨
    ∃ u w₁, (w.impls i).closed = false ∧ (w.impls i).utpSocket = some u ∧ (w.impls i).gotEof = false ∧
      (w.utp u).onClose.foldlM (callbackSendtoWith (closeWithErrorDepth depth)) (w.shutUtp i ec) = .ok w₁ ∧
      w₁.finishClose i = .ok w' := by
  cases hc : (w.impls i).closed with
  | true =>
    rcases closeWithErrorDepth_closed depth hc ec with ⟨hslots, heq⟩ | ⟨slot, -, heq⟩ <;> rw [heq] at h <;> cases h
    exact .inl ⟨rfl, hslots, rfl⟩
  | false =>
    by_cases hutp : (w.impls i).utpSocket = none ∨ (w.impls i).gotEof = true
    · rw [(closeWithErrorDepth_simple _ ec hc hutp).1] at h
      cases h
      exact .inr (.inl ⟨rfl, hutp, rfl⟩)
    · obtain ⟨hne, heof⟩ := not_or.1 hutp
      obtain ⟨u, hu⟩ := Option.ne_none_iff_exists'.1 hne
      have heof : (w.impls i).gotEof = false := by simpa using heof
      rw [closeWithErrorDepth_utp ec hc hu heof] at h
      simp only [Except.bind_ok_iff] at h
      obtain ⟨-, -, w₁, hsends, hfinish⟩ := h
      exact .inr (.inr ⟨u, w₁, rfl, hu, heof, hsends, hfinish⟩)

/-- What `close_with_error` leaves is closed. -/
theorem closeWithError_closed {w w' : World} {i : Nat} {ec : ErrorCode} (h : w.closeWithError i ec = .ok w') :
    (w'.impls i).closed = true := by
  rcases closeWithErrorDepth_ok h with ⟨hc, -, rfl⟩ | ⟨-, -, rfl⟩ | ⟨u, w₁, -, -, -, hsends, hfinish⟩
  · exact hc
  · exact shutUtp_closed w i ec
  · have htr : Traces Closes Raises id (w.shutUtp i ec) (Except.ok w₁) := by
      rw [← hsends]
      exact Traces.foldlM (fun _ => True) (fun _ _ _ _ => trivial) trivial fun w ec _ _ =>
        callbackSendtoWith_closes (fun w i ec hi => closeWithErrorDepth_traces _ w i ec hi) w ec
    obtain ⟨-, c, -, rfl⟩ := finishClose_ok_iff.1 hfinish
    exact (update_field SocketImpl.closed (by rfl) i).trans (closed_after (shutUtp_closed w i ec) htr)

theorem callbackSendto_closes (w : World) (ec : ErrorCode) : Traces Closes Raises id w (w.callbackSendto ec) :=
  callbackSendtoWith_closes (fun _ _ ec hi => closeWithError_closes hi ec) w ec

theorem sends_closes (w : World) (ecs : List ErrorCode) : Traces Closes Raises id w (w.sends ecs) :=
  Traces.foldlM (fun _ => True) (fun _ _ _ _ => trivial) trivial fun w ec _ _ => callbackSendto_closes w ec

/-! ## Reading and writing -/

/-- The labels no invariant objects to. -/
def Label.Plain : Label → Prop
  | .setup _ _ _ | .connect _ _ | .waiting _ _ | .take _ | .direct _ | .received _ | .shut _ _ | .finish _ | .eof _
  | .destroy _ _ => False
  | _ => True

/-- Those that are about `socket` objects: what they hold, and which there are. -/
def Label.Object : Label → Prop
  | .socket | .bind _ | .moveConstruct _ | .release _ | .assign _ _ => True
  | _ => False

/-- Those that neither write nor are about `socket` objects. -/
def Label.Quiet : Label → Prop
  | .data _ | .wrote _ | .post _ .send => False
  | .socket | .bind _ | .moveConstruct _ | .release _ | .assign _ _ => False
  | l => l.Plain

/-- The labels of a write on `i`, through the `utp_socket` it has. -/
def Label.WritesTo (i : Nat) (u : Option Nat) : Label → Prop
  | .data j => j = i
  | .wrote u' => u = some u'
  | .post j slot => j = i ∧ slot = .send
  | _ => False

theorem Label.WritesTo.plain {i : Nat} {u : Option Nat} {l : Label} (h : l.WritesTo i u) : l.Plain := by
  cases l <;> first | exact h.elim | trivial

theorem Label.Object.plain {l : Label} (h : l.Object) : l.Plain := by
  cases l <;> first | exact h.elim | trivial

theorem Label.Quiet.plain {l : Label} (h : l.Quiet) : l.Plain := by
  cases l <;> first | exact h | trivial

/-- Wherever admitted moves lead from `w`, the sends `ecs` make admitted moves again. -/
def Sends (ok : World → Label → Prop) (w : World) (ecs : List ErrorCode) : Prop :=
  ∀ w', ReflTransGen (Moves ok) w w' → Traces (Moves fun w l => ok w l ∧ l.Closing) Raises id w' (w'.sends ecs)

theorem Sends.of_closing {ok : World → Label → Prop} (h : ∀ w l, l.Closing → ok w l) (w : World)
    (ecs : List ErrorCode) : Sends ok w ecs := fun w' _ =>
  (sends_closes w' ecs).mono (Moves.mono fun w l hl => ⟨h w l hl, hl⟩) fun _ _ h => h

/-- Sends that do not fail fatally do nothing. -/
theorem callbackSendtoWith_quiet {close : World → Nat → ErrorCode → Except Fault World} {w : World}
    {ecs : List ErrorCode} (h : ∀ ec ∈ ecs, fatal ec = false) : ecs.foldlM (callbackSendtoWith close) w = .ok w := by
  induction ecs with
  | nil => rfl
  | cons ec ecs ih =>
    have hec : callbackSendtoWith close w ec = .ok w := by simp [callbackSendtoWith, h ec]
    rw [List.foldlM_cons, hec, Except.ok_bind]
    exact ih fun ec' hec' => h ec' (by simp [hec'])

theorem sends_quiet {w : World} {ecs : List ErrorCode} (h : ∀ ec ∈ ecs, fatal ec = false) : w.sends ecs = .ok w :=
  callbackSendtoWith_quiet h

theorem Sends.of_quiet {ok : World → Label → Prop} {w : World} {ecs : List ErrorCode}
    (h : ∀ ec ∈ ecs, fatal ec = false) : Sends ok w ecs := fun w _ => by
  rw [sends_quiet h]
  exact Traces.done rfl

/-- Closing an open socket whose `utp_close` makes no send that fails fatally. -/
theorem closeWithError_quiet {ok : World → Label → Prop} {w : World} {i : Nat} {ec : ErrorCode}
    (hi : i ∈ w.registeredSockets) (hopen : (w.impls i).closed = false) (hshut : ok w (.shut i ec))
    (hfinish : ∀ w', ReflTransGen Closes (w.shutUtp i ec) w' → ok w' (.finish i))
    (hquiet : ∀ u, (w.impls i).utpSocket = some u → (w.impls i).gotEof = false →
      ∀ ec ∈ (w.utp u).onClose, fatal ec = false) :
    Traces (Moves ok) Raises id w (w.closeWithError i ec) := by
  refine closeWithErrorDepth_open hi hopen hshut hfinish fun u hu heof => ?_
  rw [callbackSendtoWith_quiet (hquiet u hu heof)]
  exact Traces.done rfl

theorem Sends.traces {ok : World → Label → Prop} {w : World} {ecs : List ErrorCode} (h : Sends ok w ecs) :
    Traces (Moves ok) Raises id w (w.sends ecs) :=
  (h w .refl).mono (Moves.mono fun _ _ hl => hl.1) fun _ _ h => h

theorem Sends.later {ok : World → Label → Prop} {w w' : World} {ecs : List ErrorCode} (h : Sends ok w ecs)
    (hm : ReflTransGen (Moves ok) w w') : Sends ok w' ecs := fun w'' hm' => h w'' (hm.trans hm')

section Functions

variable {ok : World → Label → Prop} (hp : ∀ w l, l.Quiet → ok w l)

/-- What a move of closing, of data or of `utp_write` leaves: who is attached to what. -/
theorem Move.keeps_attached {w w' : World} {l : Label} (hl : l.Closing ∨ (∃ i, l = .data i) ∨ ∃ u, l = .wrote u)
    (h : Move w l w') (j : Nat) : (w'.impls j).utpSocket = (w.impls j).utpSocket := by
  cases h with
  | @shut i ec _ _ _ =>
    obtain ⟨utp, heq, -⟩ := shutUtp_eq w i ec
    rw [heq]
    exact update_field SocketImpl.utpSocket (by rfl) j
  | finish hc hf =>
    obtain ⟨-, c, -, rfl⟩ := finishClose_ok_iff.1 hf
    exact update_field SocketImpl.utpSocket (by rfl) j
  | data hs => exact update_field SocketImpl.utpSocket hs.utpSocket j
  | wrote => rfl
  | _ => simp [Label.Closing] at hl

/-- The admitted moves inside the loops of `do_write`. -/
abbrev WriteMoves (ok : World → Label → Prop) : World → World → Prop :=
  Moves fun w l => ok w l ∧ (l.Closing ∨ (∃ i, l = .data i) ∨ ∃ u, l = .wrote u)

theorem WriteMoves.attached {w w' : World} (h : WriteMoves ok w w') (j : Nat) :
    (w'.impls j).utpSocket = (w.impls j).utpSocket := by
  obtain ⟨l, ⟨-, hl⟩, hm⟩ := h
  exact hm.keeps_attached hl j

/-- What a write keeps track of: who is attached, and what its sends may do. -/
theorem WriteMoves.keeps {w w₁ w₂ : World} {i u : Nat} (hm : WriteMoves ok w₁ w₂)
    (h : (w₁.impls i).utpSocket = some u ∧ ReflTransGen (Moves ok) w w₁) :
    (w₂.impls i).utpSocket = some u ∧ ReflTransGen (Moves ok) w w₂ :=
  ⟨(hm.attached i).trans h.1, h.2.tail (hm.mono fun _ _ hl => hl.1)⟩

theorem utpWrite_traces {w : World} {i u : Nat} {b : List UInt8} {r : WriteReply}
    (hw : ∀ w l, l.WritesTo i (some u) → ok w l) (hs : Sends ok w r.sends)
    (hu : (w.impls i).utpSocket = some u) : Traces (WriteMoves ok) Raises id w (w.utpWrite u b r) := by
  unfold utpWrite
  refine Traces.require (fun hd => ⟨i, u, hu, by simpa using hd⟩) fun _ => ?_
  refine Traces.bind (g := id) (fun _ => True) (fun _ _ _ _ => trivial) trivial
    ((hs w .refl).mono (Moves.mono fun _ _ hl => ⟨hl.1, .inl hl.2⟩) fun _ _ h => h) fun w' _ _ => ?_
  exact Traces.move (g := id) ⟨.wrote u, ⟨hw _ _ rfl, .inr (.inr ⟨u, rfl⟩)⟩, .wrote⟩

theorem writeBuffer_traces {i u turns : Nat} {w : World} {b : List UInt8} {rs : List WriteReply}
    (hw : ∀ w l, l.WritesTo i (some u) → ok w l) (hs : ∀ r ∈ rs, Sends ok w r.sends)
    (hu : (w.impls i).utpSocket = some u) :
    Traces (WriteMoves ok) Raises (fun x => x.1) w (writeBuffer i u turns w b rs) := by
  induction turns generalizing w b rs with
  | zero => exact Traces.fault trivial
  | succ turns ih =>
    rw [writeBuffer]
    split
    · exact Traces.done rfl
    · have hr : Sends ok w (rs.headD {}).sends := by
        cases rs with
        | nil => exact Sends.of_quiet (by simp)
        | cons r rs => exact hs r (by simp)
      refine Traces.bind (g := id) (fun w' => (w'.impls i).utpSocket = some u ∧ ReflTransGen (Moves ok) w w')
        (fun _ _ h hm => hm.keeps h) ⟨hu, .refl⟩ (utpWrite_traces hw hr hu) fun w' hw' _ => ?_
      have hdata : WriteMoves ok w' (w'.setImpl i
          { w'.impls i with bytesSent := (w'.impls i).bytesSent + (rs.headD {}).accepted }) :=
        ⟨.data i, ⟨hw _ _ rfl, .inr (.inl ⟨i, rfl⟩)⟩, .data (.tx _ _ _)⟩
      dsimp only
      split
      · exact Traces.move (g := fun x : World × List UInt8 × List WriteReply × Bool => x.1) hdata
      · obtain ⟨hu', hlater⟩ := hdata.keeps hw'
        exact Traces.after hdata (ih (fun r hr => (hs r (List.mem_of_mem_tail hr)).later hlater) hu')

/-- The replies left over are among those given. -/
theorem writeBuffer_replies {i u turns : Nat} {w w' : World} {b b' : List UInt8} {rs rs' : List WriteReply}
    {still : Bool} (h : writeBuffer i u turns w b rs = .ok (w', b', rs', still)) : ∀ r ∈ rs', r ∈ rs := by
  induction turns generalizing w b rs with
  | zero => cases h
  | succ turns ih =>
    rw [writeBuffer] at h
    split at h
    · cases h
      exact fun r hr => hr
    · simp only [Except.bind_ok_iff] at h
      obtain ⟨w₁, -, h⟩ := h
      split at h
      · cases h
        exact fun r hr => List.mem_of_mem_tail hr
      · exact fun r hr => List.mem_of_mem_tail (ih h r hr)

theorem writeBuffers_traces {i u : Nat} {w : World} {bs : List (List UInt8)} {rs : List WriteReply}
    (hw : ∀ w l, l.WritesTo i (some u) → ok w l) (hs : ∀ r ∈ rs, Sends ok w r.sends)
    (hu : (w.impls i).utpSocket = some u) :
    Traces (WriteMoves ok) Raises (fun x => x.1) w (writeBuffers i u w bs rs) := by
  induction bs generalizing w rs with
  | nil => exact Traces.done rfl
  | cons b bs ih =>
    rw [writeBuffers]
    refine Traces.bind (g := fun x => x.1)
      (fun w' => (w'.impls i).utpSocket = some u ∧ ReflTransGen (Moves ok) w w')
      (fun _ _ h hm => hm.keeps h) ⟨hu, .refl⟩ (writeBuffer_traces hw hs hu) ?_
    rintro ⟨w', b', rs', still⟩ ⟨hu', hlater⟩ heq
    dsimp only
    split
    · refine Traces.bind (g := fun x => x.1) (fun _ => True) (fun _ _ _ _ => trivial) trivial
        (ih (fun r hr => (hs r (writeBuffer_replies heq r hr)).later hlater) hu') ?_
      · rintro ⟨w'', bs', still'⟩ - -
        exact Traces.done rfl
    · exact Traces.done rfl

theorem postOp_traces {w : World} {i size : Nat} (slot : Slot) {ec : ErrorCode} {data : List UInt8}
    (hslot : slot ≠ .accept) (hok : ok w (.post i slot)) :
    Traces (Moves ok) Raises id w (w.postOp i slot ec size data) := by
  unfold postOp
  split
  · exact Traces.fault trivial
  · next h hh => exact Traces.move (g := id) ⟨.post i slot, hok, .post hh hslot⟩

/-- `setup_op` as a move, followed by the rest of the operation. -/
theorem setupOp_traces {w : World} {i : Nat} {slot : Slot} {h : Handler} {f : World → Except Fault World}
    (hi : i ∈ w.registeredSockets) (hempty : (w.impls i).handlers slot = none) (hc : slot ≠ .connect)
    (ha : slot ≠ .accept) (hr : slot = .recv → (w.impls i).closed = false) (hok : ok w (.setup i slot h))
    (hf : ∀ w', w.setupOp i slot h = .ok w' → Moves ok w w' → Traces (Moves ok) Raises id w' (f w')) :
    Traces (Moves ok) Raises id w (w.setupOp i slot h >>= f) := by
  obtain ⟨t, m, hinc⟩ := Context.increment_spec w.ctx
  cases heq : w.setupOp i slot h with
  | error f => simp [setupOp, hinc, pure, Except.pure] at heq
  | ok w' =>
    have hmove : Moves ok w w' := by
      simp only [setupOp, Except.bind_ok_iff, Except.pure_ok_iff] at heq
      obtain ⟨c, hinc, rfl⟩ := heq
      exact ⟨.setup i slot h, hok, .setup hi hempty hc ha hr hinc⟩
    exact Traces.after hmove (hf w' heq hmove)

theorem setupOp_impl {w w' : World} {i : Nat} {slot : Slot} {h : Handler} (heq : w.setupOp i slot h = .ok w') :
    w'.impls = Function.update w.impls i ((w.impls i).setHandler slot (some { h with after := true })) ∧
      w'.utp = w.utp ∧ w'.registeredSockets = w.registeredSockets := by
  simp only [setupOp, Except.bind_ok_iff, Except.pure_ok_iff] at heq
  obtain ⟨c, -, rfl⟩ := heq
  exact ⟨rfl, rfl, rfl⟩

theorem doWrite_traces {w : World} {i : Nat} {h : Handler} {rs : List WriteReply} (hi : i ∈ w.registeredSockets)
    (hw : ∀ w' l, l.WritesTo i (w.impls i).utpSocket → ok w' l) (hs : ∀ r ∈ rs, Sends ok w r.sends)
    (hdirect : ok w (.direct { impl := some i, slot := .send, handler := h, ec := .badDescriptor }))
    (hsetup : ok w (.setup i .send h)) : Traces (Moves ok) Raises id w (w.doWrite i h rs) := by
  unfold doWrite
  refine Traces.require (fun _ => trivial) fun hempty => ?_
  split
  · exact Traces.move (g := id) ⟨_, hdirect, .direct⟩
  · next u hu =>
    rw [hu] at hw
    refine setupOp_traces hi hempty (by simp) (by simp) (by simp) hsetup fun w' hw' hmove => ?_
    have hu' : (w'.impls i).utpSocket = some u := by
      rw [(setupOp_impl hw').1]
      simpa [SocketImpl.setHandler] using hu
    refine Traces.bind (g := fun x => x.1) (fun _ => True) (fun _ _ _ _ => trivial) trivial
      ((writeBuffers_traces hw (fun r hr => (hs r hr).later (.single hmove)) hu').mono
        (Moves.mono fun _ _ hl => hl.1) fun _ _ h => h) ?_
    rintro ⟨w₁, bufs, still⟩ - -
    dsimp only
    refine Traces.after ⟨.data i, hw _ _ rfl, .data (s := { w₁.impls i with txBuffers := bufs })
      (.tx _ _ _)⟩ ?_
    split
    · refine Traces.bind (g := id) (fun _ => True) (fun _ _ _ _ => trivial) trivial
        (postOp_traces .send (by simp) (hw _ _ ⟨rfl, rfl⟩)) fun w₂ _ _ => ?_
      exact Traces.move (g := id) ⟨.data i, hw _ _ rfl, .data (.tx _ _ _)⟩
    · exact Traces.done rfl

theorem onWritable_traces {w : World} {i : Nat} {rs : List WriteReply} (hi : i ∈ w.registeredSockets)
    (hw : ∀ w' l, l.WritesTo i (w.impls i).utpSocket → ok w' l) (hs : ∀ r ∈ rs, Sends ok w r.sends)
    (htake : ∀ h, (w.impls i).handlers .send = some h →
      let w' := w.setImpl i ((w.impls i).setHandler .send none)
      ok w (.take i) ∧ ok w' (.setup i .send h) ∧
        ok w' (.direct { impl := some i, slot := .send, handler := h, ec := .badDescriptor })) :
    Traces (Moves ok) Raises id w (w.onWritable i rs) := by
  unfold onWritable
  split
  · exact Traces.done rfl
  · next h hh =>
    obtain ⟨h1, h2, h3⟩ := htake h hh
    have hmove : Moves ok w (w.setImpl i ((w.impls i).setHandler .send none)) := ⟨.take i, h1, .take hh⟩
    exact Traces.after hmove (doWrite_traces hi (by simpa [SocketImpl.setHandler] using hw)
      (fun r hr => (hs r hr).later (.single hmove)) h3 h2)

include hp

theorem onReceive_traces {w : World} {i u : Nat} {buf : List UInt8} {ecs : List ErrorCode}
    (halive : (w.utp u).alive = true) (hd : (w.utp u).userdata = some i)
    (hreceived : ok w (.received i)) (hs : Sends ok w ecs) :
    Traces (Moves ok) Raises id w (w.onReceive i buf ecs) := by
  unfold onReceive
  dsimp only
  split
  · exact Traces.move (g := id) ⟨.received i, hreceived, .received (.rx _ _ _)⟩
  · refine Traces.require (fun _ => trivial) fun _ => ?_
    have hmove : Moves ok w (w.setImpl i (fill (w.impls i) buf)) :=
      ⟨.received i, hreceived, .received (.rx _ _ _)⟩
    refine Traces.after hmove ?_
    refine Traces.bind (g := id) (fun _ => True) (fun _ _ _ _ => trivial) trivial ?_ fun w' _ _ =>
      postOp_traces .recv (by simp) (hp _ _ trivial)
    unfold drainedIf utpReadDrained
    split
    · split
      · next hnone => exact Traces.fault ⟨i, u, halive, hd, hnone⟩
      · next u' hu =>
        refine Traces.require (fun hd => ⟨i, u', hu, by simpa using hd⟩) fun _ => ?_
        exact (hs.later (.single hmove)).traces
    · exact Traces.done rfl

omit hp in
theorem closeWithError_simple {w : World} {i : Nat} (ec : ErrorCode) (hopen : (w.impls i).closed = false)
    (h : (w.impls i).utpSocket = none ∨ (w.impls i).gotEof = true) :
    w.closeWithError i ec = .ok (w.shut i ec) ∧ w.shutUtp i ec = w.shut i ec := by
  obtain ⟨h1, h2⟩ := closeWithErrorDepth_simple (w.registeredSockets.length + 1) ec hopen h
  exact ⟨h1.trans (by rw [h2]), h2⟩

omit hp in
theorem drain_error {n : Nat} {queue : List Buf} {f : Fault} (h : drain n queue = .error f) :
    f = .assertion .doReadQueue := by
  induction queue generalizing n with
  | nil =>
    simp only [drain, Except.bind_error_iff, Except.require_error_iff] at h
    rcases h with ⟨-, rfl⟩ | ⟨-, -, h⟩
    · rfl
    · cases h
  | cons b bs ih =>
    rw [drain] at h
    split at h
    · cases h
    · split at h
      · exact ih h
      · cases h

theorem doRead_traces {w : World} {i : Nat} {h : Handler} (hi : i ∈ w.registeredSockets)
    (hreceived : ∀ w, ok w (.received i))
    (hdirect : ∀ ec, ok w (.direct { impl := some i, slot := .recv, handler := h, ec }))
    (hsetup : ok w (.setup i .recv h))
    (hshut : ∀ w' : World, (w.impls i).gotEof = true → (w.impls i).closed = false →
      (w'.impls i).handlers .accept = (w.impls i).handlers .accept → ok w' (.shut i .connectionReset)) :
    Traces (Moves ok) Raises id w (w.doRead i h) := by
  unfold doRead
  dsimp only
  refine Traces.require (fun _ => trivial) fun hempty => ?_
  split
  · exact Traces.move (g := id) ⟨_, hdirect _, .direct⟩
  · next hc =>
    have hopen : (w.impls i).closed = false := by simpa using hc
    split
    · exact Traces.move (g := id) ⟨_, hdirect _, .direct⟩
    · refine setupOp_traces hi hempty (by simp) (by simp) (fun _ => hopen) hsetup fun w' hw' _ => ?_
      obtain ⟨himpl, -, hreg⟩ := setupOp_impl hw'
      have hsame : w'.impls i = (w.impls i).setHandler .recv (some { h with after := true }) := by
        rw [himpl, Function.update_self]
      split
      · split
        · next heof =>
          have hopen' : (w'.impls i).closed = false := by rw [hsame]; exact hopen
          have heof' : (w'.impls i).gotEof = true := by rw [hsame]; exact heof
          obtain ⟨heq, hshut'⟩ := closeWithError_simple .connectionReset hopen' (.inr heof')
          rw [heq]
          refine Traces.move (g := id) ⟨.shut i .connectionReset, ?_, ?_⟩
          · exact hshut w' heof hopen (by rw [hsame]; simp)
          · have hmove : Move w' (.shut i .connectionReset) (w'.shutUtp i .connectionReset) :=
              .shut (by rw [hreg]; exact hi) hopen' fun u _ he => by rw [heof'] at he; cases he
            rw [hshut'] at hmove
            exact hmove
        · exact Traces.done rfl
      · refine Traces.bind (g := fun _ => w') (fun _ => True) (fun _ _ _ _ => trivial) trivial ?_ fun queue _ _ => ?_
        · cases hdrain : drain (Scatter.copied (w.impls i).rxBuffers (unread (w.impls i).rxBufferQueue))
              (w.impls i).rxBufferQueue with
          | ok queue => exact Traces.done rfl
          | error f =>
            rw [drain_error hdrain]
            exact Traces.fault trivial
        · refine Traces.after ⟨.received i, hreceived w', .received (s := { w'.impls i with
            rxBuffers := Scatter.copy (w.impls i).rxBuffers (unread (w.impls i).rxBufferQueue)
            rxBufferQueue := queue }) (.rx _ _ _)⟩ ?_
          exact postOp_traces .recv (by simp) (hp _ _ trivial)

/-! ## Connecting, accepting and the end of a connection -/

omit hp in
theorem utpSetUserdata_alive {w : World} {u i : Nat} (h : (w.utp u).alive = true) :
    w.utpSetUserdata u i = .ok (w.setUtp u { w.utp u with userdata := some i }) := by
  rw [utpSetUserdata, Except.require, if_pos h]
  rfl

omit hp in
/-- `utp_create_socket`, then `utp_set_userdata`. -/
theorem utpSetUserdata_new (w : World) (u i : Nat) (ep : Endpoint) (onClose : List ErrorCode) :
    (w.setUtp u { alive := true, peer := ep, onClose }).utpSetUserdata u i =
      .ok (w.setUtp u { alive := true, userdata := some i, peer := ep, onClose }) := by
  rw [utpSetUserdata_alive (by simp [setUtp])]
  simp [setUtp]

omit hp in
theorem doConnect_traces {w : World} {i : Nat} {ep : Endpoint} {h : Handler} {ecs onClose : List ErrorCode}
    (hi : i ∈ w.registeredSockets) (hctx : w.ctx.utpCtx = true) (hs : Sends ok w ecs) (hconnect : ok w (.connect i h)) :
    Traces (Moves ok) Raises id w (w.doConnect i ep h ecs onClose) := by
  obtain ⟨t, m, hinc⟩ := Context.increment_spec w.ctx
  unfold doConnect
  refine Traces.require (fun _ => trivial) fun hu => ?_
  simp only [setupOp, hinc, Except.ok_bind, pure_bind, setImpl]
  refine Traces.require (fun hd => absurd hctx hd) fun _ => ?_
  simp only [utpSetUserdata_new, Except.ok_bind]
  have hmove : Move w (.connect i h)
      ((({ w with
          ctx := { w.ctx with outstandingOpCount := w.ctx.outstandingOpCount + 1, ticker := t, multiplexer := m }
          created := w.created + 1 } : World).setUtp w.created
        { alive := true, userdata := some i, peer := ep, onClose }).setImpl i
          { (w.impls i).setHandler .connect (some { h with after := true }) with utpSocket := some w.created }) :=
    .connect hi hu hinc
  have hmove : Moves ok w _ := ⟨.connect i h, hconnect, hmove⟩
  refine Traces.after hmove ?_
  simp only [setImpl, setUtp, Function.update_self, Function.update_idem] at hmove ⊢
  exact (hs.later (.single hmove)).traces

omit hp in
theorem doAccept_traces {w : World} {i : Nat} {h : Handler} (hi : i ∈ w.registeredSockets)
    (hok : ok w (.waiting i h)) : Traces (Moves ok) Raises id w (w.doAccept i h) := by
  obtain ⟨t, m, hinc⟩ := Context.increment_spec w.ctx
  unfold doAccept addAcceptingSocket
  refine Traces.require (fun _ => trivial) fun hempty => ?_
  rw [bind_assoc]
  refine Traces.require (fun _ => trivial) fun hl => ?_
  simp only [pure_bind, setupOp, hinc, Except.ok_bind]
  exact Traces.move (g := id) ⟨.waiting i h, hok, .waiting hi hempty hl hinc⟩

theorem onEof_traces {w : World} {i : Nat} (heof : ok w (.eof i)) :
    Traces (Moves ok) Raises id w (w.onEof i) := by
  unfold onEof
  refine Traces.require (fun _ => trivial) fun _ => ?_
  refine Traces.after ⟨.eof i, heof, .eof⟩ ?_
  unfold postIfSet
  dsimp only
  split
  · exact Traces.done rfl
  · next h hh => exact Traces.move (g := id) ⟨.post i .recv, hp _ _ trivial, .post hh (by simp)⟩

omit hp in
/-- `on_destroy` up to its decrement: the `utp_socket` is let go of, and an open socket is shut. -/
theorem destroy_closes {w : World} {i : Nat} :
    let w₀ := w.setImpl i { w.impls i with utpSocket := none }
    (∃ f, w₀.closeWithError i .connectionAborted = .error f ∧ Raises w f) ∨
      ((w.impls i).closed = true → ∀ slot, (w.impls i).handlers slot = none) ∧
      w₀.closeWithError i .connectionAborted = .ok
        { w.setImpl i { w.impls i with utpSocket := none, closed := true, handlers := fun _ => none } with
          posted := w.posted ++ closings (w.impls i) i .connectionAborted } := by
  intro w₀
  have hself : w₀.impls i = { w.impls i with utpSocket := none } := by simp [w₀]
  have hpend : ∀ j slot, w₀.Pending j slot ↔ w.Pending j slot := fun j slot => by
    have hsame : (w₀.impls j).handlers = (w.impls j).handlers := update_field SocketImpl.handlers (by rfl) j
    rw [Pending, Pending, hsame]
  have hclosed : ∀ j, (w₀.impls j).closed = (w.impls j).closed := update_field SocketImpl.closed (by rfl)
  cases hc : (w.impls i).closed with
  | true =>
    rcases closeWithErrorDepth_closed (w₀.registeredSockets.length + 1) (w := w₀) (i := i) (by rw [hclosed]; exact hc)
      .connectionAborted with
      ⟨hslots, heq⟩ | ⟨slot, hslot, heq⟩
    · have hslots : ∀ slot, (w.impls i).handlers slot = none := fun slot => by
        have := hslots slot
        rwa [hself] at this
      refine .inr ⟨fun _ => hslots, heq.trans ?_⟩
      have hfun : (fun _ => none) = (w.impls i).handlers := funext fun slot => (hslots slot).symm
      simp only [closings, hslots, w₀]
      rw [hfun, ← hc]
      simp [setImpl]
    · exact .inl ⟨_, heq, raises_closedSite hc ((hpend i slot).1 hslot)⟩
  | false =>
    obtain ⟨heq, -⟩ := closeWithError_simple (w := w₀) (i := i) .connectionAborted
      (by rw [hclosed]; exact hc) (.inl (by rw [hself]))
    refine .inr ⟨fun h => by simp at h, ?_⟩
    rw [heq, shut_eq, hself]
    simp [w₀, setImpl, closings]

theorem destroying_traces {w : World} {i u : Nat} {rs : List WriteReply} (halive : (w.utp u).alive = true)
    (hd : (w.utp u).userdata = some i) (hdestroy : ok w (.destroy i u)) :
    Traces (Moves ok) Raises id w (w.stateChange u .destroying rs) := by
  unfold stateChange callbackOnStateChange onDestroy
  simp only [hd, if_true, bind_assoc]
  refine Traces.require (fun _ => trivial) fun hu => ?_
  rcases destroy_closes (w := w) (i := i) with ⟨f, heq, hf⟩ | ⟨hslots, heq⟩
  · rw [heq]
    exact Traces.fault hf
  · rw [heq, Except.ok_bind]
    refine Traces.after ⟨.destroy i u, hdestroy, .destroy halive hd hu hslots⟩ ?_
    simp only [setImpl_impls, Function.update_self]
    split
    · next hdec =>
      have hmove : Move _ (.decrement i) _ := Move.decrement
        (w := { (w.setUtp u { w.utp u with alive := false }).setImpl i
        { w.impls i with utpSocket := none, closed := true, handlers := fun _ => none } with
        posted := w.posted ++ closings (w.impls i) i .connectionAborted }) (i := i) (by simpa using hdec)
      simp only [setImpl, setUtp, Function.update_self, Function.update_idem] at hmove ⊢
      exact Traces.move (g := id) ⟨.decrement i, hp _ _ trivial, hmove⟩
    · exact Traces.done rfl

omit hp in
/-- A `utp_socket` that is attached to nobody is left alone by closing. -/
theorem Closes.keeps_free {w w' : World} (h : Closes w w') {u : Nat} (hfree : ∀ j, (w.impls j).utpSocket ≠ some u) :
    w'.utp u = w.utp u ∧ w'.created = w.created ∧ ∀ j, (w'.impls j).utpSocket ≠ some u := by
  obtain ⟨l, hl, hm⟩ := h
  have hatt := hm.keeps_attached (.inl hl)
  refine and_assoc.1 ⟨?_, fun j => by rw [hatt]; exact hfree j⟩
  cases hm with
  | @shut i ec _ _ _ =>
    obtain ⟨utp, heq, hutp⟩ := shutUtp_eq w i ec
    rw [heq]
    rcases hutp u with h | ⟨h, -⟩
    · exact ⟨h, rfl⟩
    · exact absurd h (hfree i)
  | finish hc hf =>
    obtain ⟨-, c, -, rfl⟩ := finishClose_ok_iff.1 hf
    exact ⟨rfl, rfl⟩
  | _ => exact hl.elim

theorem incoming_traces {w : World} {ep : Endpoint} {ecs onClose : List ErrorCode}
    (hfresh : ∀ j, (w.impls j).utpSocket ≠ some w.created) (hs : Sends ok w ecs) :
    Traces (Moves ok) Raises id w (w.incoming ep ecs onClose) := by
  unfold incoming
  split
  · exact Traces.done rfl
  · dsimp only
    set w₁ := ({ w with created := w.created + 1 } : World).setUtp w.created { alive := true, peer := ep, onClose }
      with hw₁
    have hcreate : Moves ok w w₁ := ⟨.create, hp _ _ trivial, .create⟩
    refine Traces.after hcreate ?_
    refine Traces.bind (g := id) (fun _ => True) (fun _ _ _ _ => trivial) trivial
      (hs.later (.single hcreate)).traces fun w₂ _ heq => ?_
    -- What libutp has just made is still nobody's.
    have hnew : w₂.utp w.created = { alive := true, peer := ep, onClose } ∧ w₂.created = w.created + 1 ∧
        ∀ j, (w₂.impls j).utpSocket ≠ some w.created := by
      have hcl := sends_closes w₁ ecs
      rw [heq] at hcl
      refine hcl.keeps (fun w' => w'.utp w.created = { alive := true, peer := ep, onClose } ∧
        w'.created = w.created + 1 ∧ ∀ j, (w'.impls j).utpSocket ≠ some w.created) (fun s s' hs h => ?_) ?_
      · obtain ⟨h1, h2, h3⟩ := Closes.keeps_free h hs.2.2
        exact ⟨h1.trans hs.1, h2.trans hs.2.1, h3⟩
      · exact ⟨by simp [hw₁], rfl, hfresh⟩
    obtain ⟨hutp, hcreated, hfree⟩ := hnew
    unfold callbackOnAccept
    split
    · exact Traces.done rfl
    · next i rest hacc =>
      unfold onAccept
      refine Traces.require (fun hd => ⟨i, rest, hacc, hd⟩) fun hu => ?_
      refine Traces.require (fun hd => ⟨i, rest, hacc, hd⟩) fun hpend => ?_
      rw [utpSetUserdata_alive (by rw [hutp]), Except.ok_bind]
      obtain ⟨h, hh⟩ := Option.ne_none_iff_exists'.1 hpend
      have hh : (w₂.impls i).handlers .accept = some h := hh
      have hmove : Move w₂ (.accept i w.created) _ :=
        .accept hacc hu hh (by rw [hutp]) (by omega) (by rw [hutp]) hfree (by rw [hutp])
      simp only [postOp, setImpl, setUtp, Function.update_self, hh]
      refine Traces.move (g := id) ⟨.accept i w.created, hp _ _ trivial, ?_⟩
      simpa [setImpl, setUtp, post, SocketImpl.setHandler] using hmove

omit hp in
/-- `socket::close`, given what closing the `socket_impl` may do. -/
theorem close_traces {w : World} {v : Nat} (hrelease : ∀ w, ok w (.release v))
    (hsock : ∀ i, (w.sockets v).impl = some i → i ∈ w.registeredSockets)
    (hclose : ∀ i, (w.sockets v).impl = some i → (w.impls i).closed = false →
      Traces (Moves ok) Raises id w (w.closeWithError i .operationAborted)) :
    Traces (Moves ok) Raises id w (w.close v) := by
  unfold close
  split
  · exact Traces.done rfl
  · next i hi =>
    split
    · next hc =>
      refine Traces.move (g := id) ⟨.release v, hrelease _, .release fun j hj => ?_⟩
      rw [hi] at hj
      cases hj
      exact hc
    · next hc =>
      refine Traces.bind (g := id) (fun _ => True) (fun _ _ _ _ => trivial) trivial
        (hclose i hi (by simpa using hc)) fun w' _ heq => ?_
      refine Traces.move (g := id) ⟨.release v, hrelease _, .release fun j hj => ?_⟩
      -- Whatever the socket still holds is what has just been closed.
      have hcloses : Traces Closes Raises id w (Except.ok w') := by
        rw [← heq]
        exact closeWithError_closes (hsock i hi) _
      have hj := sockets_after hcloses hj
      rw [hi] at hj
      cases hj
      exact closeWithError_closed heq

omit hp in
theorem close_impl {w w' : World} {v : Nat} (h : w.close v = .ok w') : (w'.sockets v).impl = none := by
  unfold close at h
  split at h
  · next hnone =>
    cases h
    exact hnone
  · split at h
    all_goals
      obtain ⟨w₁, -, h⟩ := Except.bind_ok_iff.1 h
      cases h
      simp

/-- What an event's moves have to be admitted for: the operation it starts, the socket it closes,
and what its sends may do. -/
def Admits (ok : World → Label → Prop) (w : World) : Event → Prop
  | .close v | .moveAssign v _ => ∀ i, (w.sockets v).impl = some i → (w.impls i).closed = false →
      Traces (Moves ok) Raises id w (w.closeWithError i .operationAborted)
  | .asyncConnect v _ ecs _ => Sends ok w ecs ∧ ok w.numberOp (.direct
        { impl := none, slot := .connect, handler := w.nextHandler, ec := .badDescriptor }) ∧
      ∀ i, (w.sockets v).impl = some i → ok w.numberOp (.connect i w.nextHandler)
  | .asyncAccept v => ok w.numberOp (.direct
        { impl := none, slot := .accept, handler := w.nextHandler, ec := .badDescriptor }) ∧
      ∀ i, (w.sockets v).impl = some i → ok w.numberOp (.waiting i w.nextHandler)
  | .asyncWriteSome v bufs rs => (∀ r ∈ rs, Sends ok w r.sends) ∧ ok w.numberOp (.direct
        { impl := none, slot := .send, handler := w.nextHandler, ec := .badDescriptor }) ∧
      ∀ i, (w.sockets v).impl = some i →
        let w' := w.numberOp.setImpl i { w.impls i with txBuffers := bufs }
        ok w' (.setup i .send w.nextHandler) ∧ ok w' (.direct
          { impl := some i, slot := .send, handler := w.nextHandler, ec := .badDescriptor })
  | .asyncReadSome v bufs => ok w.numberOp (.direct
        { impl := none, slot := .recv, handler := w.nextHandler, ec := .badDescriptor }) ∧
      ∀ i, (w.sockets v).impl = some i →
        let w' := w.numberOp.setImpl i { w.impls i with rxBuffers := bufs }
        (∀ w, ok w (.received i)) ∧ ok w' (.setup i .recv w.nextHandler) ∧
        (∀ ec, ok w' (.direct { impl := some i, slot := .recv, handler := w.nextHandler, ec })) ∧
        ∀ w'' : World, (w.impls i).gotEof = true → (w.impls i).closed = false →
          (w''.impls i).handlers .accept = (w.impls i).handlers .accept → ok w'' (.shut i .connectionReset)
  | .sendto ec => Sends ok w [ec]
  | .stateChange u state rs => ∀ i, (w.utp u).userdata = some i →
      match state with
      | .connect => True
      | .writable => (∀ r ∈ rs, Sends ok w r.sends) ∧ ∀ h, (w.impls i).handlers .send = some h →
          let w' := w.setImpl i ((w.impls i).setHandler .send none)
          ok w (.take i) ∧ ok w' (.setup i .send h) ∧
            ok w' (.direct { impl := some i, slot := .send, handler := h, ec := .badDescriptor })
      | .eof => ok w (.eof i)
      | .destroying => ok w (.destroy i u)
  | .onRead u _ ecs => Sends ok w ecs ∧ ∀ i, (w.utp u).userdata = some i → ok w (.received i)
  | .incoming _ ecs _ => Sends ok w ecs
  | _ => True

/-- What is left of that where closing is admitted anyway. -/
def Starts (ok : World → Label → Prop) (w : World) : Event → Prop
  | .asyncConnect v _ _ _ => ok w.numberOp (.direct
        { impl := none, slot := .connect, handler := w.nextHandler, ec := .badDescriptor }) ∧
      ∀ i, (w.sockets v).impl = some i → ok w.numberOp (.connect i w.nextHandler)
  | .asyncAccept v => ok w.numberOp (.direct
        { impl := none, slot := .accept, handler := w.nextHandler, ec := .badDescriptor }) ∧
      ∀ i, (w.sockets v).impl = some i → ok w.numberOp (.waiting i w.nextHandler)
  | .asyncWriteSome v bufs _ => ok w.numberOp (.direct
        { impl := none, slot := .send, handler := w.nextHandler, ec := .badDescriptor }) ∧
      ∀ i, (w.sockets v).impl = some i →
        let w' := w.numberOp.setImpl i { w.impls i with txBuffers := bufs }
        ok w' (.setup i .send w.nextHandler) ∧ ok w' (.direct
          { impl := some i, slot := .send, handler := w.nextHandler, ec := .badDescriptor })
  | .asyncReadSome v bufs => ok w.numberOp (.direct
        { impl := none, slot := .recv, handler := w.nextHandler, ec := .badDescriptor }) ∧
      ∀ i, (w.sockets v).impl = some i →
        let w' := w.numberOp.setImpl i { w.impls i with rxBuffers := bufs }
        (∀ w, ok w (.received i)) ∧ ok w' (.setup i .recv w.nextHandler) ∧
        ∀ ec, ok w' (.direct { impl := some i, slot := .recv, handler := w.nextHandler, ec })
  | .stateChange u state _ => ∀ i, (w.utp u).userdata = some i →
      match state with
      | .connect => True
      | .writable => ∀ h, (w.impls i).handlers .send = some h →
          let w' := w.setImpl i ((w.impls i).setHandler .send none)
          ok w (.take i) ∧ ok w' (.setup i .send h) ∧
            ok w' (.direct { impl := some i, slot := .send, handler := h, ec := .badDescriptor })
      | .eof => ok w (.eof i)
      | .destroying => ok w (.destroy i u)
  | .onRead u _ _ => ∀ i, (w.utp u).userdata = some i → ok w (.received i)
  | _ => True

omit hp in
theorem Starts.admits_of {w : World} {ev : Event} (h : Starts ok w ev) (hsends : ∀ ecs, Sends ok w ecs)
    (hclose : ∀ v i, (w.sockets v).impl = some i → (w.impls i).closed = false →
      Traces (Moves ok) Raises id w (w.closeWithError i .operationAborted))
    (hshut : ∀ w i ec, ok w (.shut i ec)) : Admits ok w ev := by
  cases ev with
  | close v => exact hclose v
  | moveAssign v v' => exact hclose v
  | asyncConnect v ep ecs onClose => exact ⟨hsends ecs, h⟩
  | asyncAccept v => exact h
  | asyncWriteSome v bufs rs => exact ⟨fun r _ => hsends _, h⟩
  | asyncReadSome v bufs =>
    refine ⟨h.1, fun i hi => ?_⟩
    obtain ⟨h1, h2, h3⟩ := h.2 i hi
    exact ⟨h1, h2, h3, fun w' _ _ _ => hshut w' i _⟩
  | sendto ec => exact hsends _
  | stateChange u state rs =>
    intro i hi
    have h := h i hi
    cases state with
    | connect => trivial
    | writable => exact ⟨fun r _ => hsends _, h⟩
    | eof => exact h
    | destroying => exact h
  | onRead u buf ecs => exact ⟨hsends ecs, h⟩
  | incoming ep ecs onClose => exact hsends ecs
  | socket | bind _ | moveConstruct _ | run _ | ran | context _ => trivial

omit hp in
theorem Starts.admits {w : World} {ev : Event} (h : Starts ok w ev) (hclosing : ∀ w l, l.Closing → ok w l)
    (hsock : ∀ v i, (w.sockets v).impl = some i → i ∈ w.registeredSockets) : Admits ok w ev :=
  h.admits_of (fun ecs => Sends.of_closing hclosing w ecs)
    (fun v i hi _ => (closeWithError_closes (hsock v i hi) _).mono (Moves.mono hclosing) fun _ _ h => h)
    fun w _ _ => hclosing w _ trivial

/-- The event is a call that moves `socket` objects or what they hold. -/
def Event.OnObjects : Event → Prop
  | .socket | .bind _ | .moveConstruct _ | .moveAssign _ _ | .close _ => True
  | _ => False

/-- The event starts or resumes a write on `i`. -/
def WritesOn (w : World) (i : Nat) : Event → Prop
  | .asyncWriteSome v _ _ => (w.sockets v).impl = some i
  | .stateChange u state _ => (w.utp u).userdata = some i ∧ state = .writable
  | _ => False

/-- The faults of an event: move assignment follows the `_socket_impl` it has just moved from. -/
def RaisesIn (ev : Event) (w : World) : Fault → Prop
  | .nullPointer => ∃ v v', ev = .moveAssign v v' ∧ (w.sockets v').impl ≠ none
  | f => Raises w f

omit hp in
theorem Raises.inEvent {w : World} {f : Fault} (ev : Event) (h : Raises w f) : RaisesIn ev w f := by
  cases f with
  | nullPointer => exact h.elim
  | _ => exact h

omit hp in
theorem moveAssign_traces {w : World} {v v' : Nat} (hobjects : ∀ w l, l.Object → ok w l)
    (hsock : ∀ i, (w.sockets v).impl = some i → i ∈ w.registeredSockets) (had : Admits ok w (.moveAssign v v')) :
    Traces (Moves ok) (RaisesIn (.moveAssign v v')) id w (w.moveAssign v v') := by
  refine Traces.bind (g := id) (fun _ => True) (fun _ _ _ _ => trivial) trivial
    ((close_traces (fun w => hobjects w _ trivial) hsock had).mono (fun _ _ h => h) fun _ _ h => h.inEvent _)
    fun w' _ heq => ?_
  dsimp only
  split
  · next hs => exact Traces.fault ⟨v, v', rfl, by simp [hs]⟩
  · next hs => exact Traces.move (g := id) ⟨.assign v v', hobjects _ _ trivial, .assign (close_impl heq) hs⟩

/-- **Every event is a sequence of admitted moves**, and where it faults it does so in a world such
moves lead to. Only a write has moves that write, and only calls on `socket` objects move those. -/
theorem step_traces {w : World} {ev : Event} (hobjects : ev.OnObjects → ∀ w' l, l.Object → ok w' l)
    (hwrites : ∀ i, w.WritesOn i ev → ∀ w' l, l.WritesTo i (w.impls i).utpSocket → ok w' l)
    (hsock : ∀ v i, (w.sockets v).impl = some i → i ∈ w.registeredSockets ∧ w.ctx.utpCtx = true)
    (hdata : ∀ u i, (w.utp u).userdata = some i → i ∈ w.registeredSockets)
    (hfresh : ∀ j, (w.impls j).utpSocket ≠ some w.created) (hen : w.Enabled ev) (had : Admits ok w ev) :
    Traces (Moves ok) (RaisesIn ev) id w (w.step ev) := by
  have hnumber : Moves ok w w.numberOp := ⟨.number, hp _ _ trivial, .number⟩
  by_cases hassign : ∃ v v', ev = .moveAssign v v'
  · obtain ⟨v, v', rfl⟩ := hassign
    exact moveAssign_traces (hobjects trivial) (fun i hi => (hsock v i hi).1) had
  refine Traces.mono (R := Moves ok) (F := Raises) (fun _ _ h => h) (fun _ _ h => h.inEvent ev) ?_
  cases ev with
  | moveAssign v v' => exact absurd ⟨v, v', rfl⟩ hassign
  | socket => exact Traces.move (g := id) ⟨.socket, hobjects trivial _ _ trivial, .socket⟩
  | bind v => exact Traces.move (g := id) ⟨.bind v, hobjects trivial _ _ trivial, .bind hen.1 hen.2⟩
  | moveConstruct v =>
    exact Traces.move (g := id) ⟨.moveConstruct v, hobjects trivial _ _ trivial, .moveConstruct hen⟩
  | close v => exact close_traces (fun w => hobjects trivial w _ trivial) (fun i hi => (hsock v i hi).1) had
  | asyncConnect v ep ecs onClose =>
    obtain ⟨hs, hdirect, hconnect⟩ := had
    refine Traces.after hnumber ?_
    simp only [step, asyncConnect]
    split
    · exact Traces.move (g := id) ⟨_, hdirect, .direct⟩
    · next i hi => exact doConnect_traces (hsock v i hi).1 (hsock v i hi).2 (hs.later (.single hnumber)) (hconnect i hi)
  | asyncAccept v =>
    obtain ⟨hdirect, hwaiting⟩ := had
    refine Traces.after hnumber ?_
    simp only [step, asyncAccept]
    split
    · exact Traces.move (g := id) ⟨_, hdirect, .direct⟩
    · next i hi => exact doAccept_traces (hsock v i hi).1 (hwaiting i hi)
  | asyncWriteSome v bufs rs =>
    obtain ⟨hs, hdirect, hsetup⟩ := had
    refine Traces.after hnumber ?_
    simp only [step, asyncWriteSome]
    split
    · exact Traces.move (g := id) ⟨_, hdirect, .direct⟩
    · next i hi =>
      have hw := hwrites i hi
      have hdata : Moves ok w.numberOp (w.numberOp.setImpl i { w.impls i with txBuffers := bufs }) :=
        ⟨.data i, hw _ _ rfl, .data (.tx _ _ _)⟩
      refine Traces.after hdata ?_
      exact doWrite_traces (hsock v i hi).1 (by simpa using hw)
        (fun r hr => (hs r hr).later (.tail (.single hnumber) hdata)) (hsetup i hi).2 (hsetup i hi).1
  | asyncReadSome v bufs =>
    obtain ⟨hdirect, hsetup⟩ := had
    refine Traces.after hnumber ?_
    simp only [step, asyncReadSome]
    split
    · exact Traces.move (g := id) ⟨_, hdirect, .direct⟩
    · next i hi =>
      obtain ⟨h0, h1, h2, h3⟩ := hsetup i hi
      refine Traces.after ⟨.received i, h0 _, .received (s := { w.impls i with rxBuffers := bufs })
        (.rx _ _ _)⟩ ?_
      refine doRead_traces hp (hsock v i hi).1 h0 h2 h1 fun w'' heof hopen hacc => h3 w'' ?_ ?_ ?_
      · simpa using heof
      · simpa using hopen
      · simpa using hacc
  | sendto ec =>
    have htr := had.traces
    simp only [sends, List.foldlM_cons, List.foldlM_nil, bind_pure] at htr
    exact htr
  | stateChange u state rs =>
    cases hu : (w.utp u).userdata with
    | none =>
      have hcall : w.callbackOnStateChange u state rs = .ok w := by simp [callbackOnStateChange, hu]
      show Traces (Moves ok) Raises id w (w.stateChange u state rs)
      unfold stateChange
      rw [hcall, Except.ok_bind]
      split
      · exact Traces.move (g := id) ⟨.die u, hp _ _ trivial, .die hu⟩
      · exact Traces.done rfl
    | some i =>
      have had := had i hu
      cases state with
      | connect =>
        simp only [step, stateChange, callbackOnStateChange, hu]
        refine Traces.bind (g := id) (fun _ => True) (fun _ _ _ _ => trivial) trivial
          (postOp_traces .connect (by simp) (hp _ _ trivial)) fun w' _ _ => ?_
        exact Traces.done (by simp)
      | writable =>
        simp only [step, stateChange, callbackOnStateChange, hu]
        refine Traces.bind (g := id) (fun _ => True) (fun _ _ _ _ => trivial) trivial
          (onWritable_traces (hdata u i hu) (hwrites i ⟨hu, rfl⟩) had.1 had.2) fun w' _ _ => ?_
        exact Traces.done (by simp)
      | eof =>
        simp only [step, stateChange, callbackOnStateChange, hu]
        refine Traces.bind (g := id) (fun _ => True) (fun _ _ _ _ => trivial) trivial
          (onEof_traces hp had) fun w' _ _ => ?_
        exact Traces.done (by simp)
      | destroying => exact destroying_traces hp hen.2 hu had
  | onRead u buf ecs =>
    simp only [step, callbackOnRead]
    split
    · exact Traces.fault trivial
    · next i hi => exact onReceive_traces hp hen.2 hi (had.2 i hi) had.1
  | incoming ep ecs onClose => exact incoming_traces hp hfresh had
  | run c => exact Traces.move (g := id) ⟨.run c, hp _ _ trivial, .run hen⟩
  | ran => exact Traces.move (g := id) ⟨.ran, hp _ _ trivial, .ran⟩
  | context ev =>
    simp only [step]
    cases hc : w.ctx.step ev with
    | error f =>
      rcases Context.step_fault hc with rfl | ⟨s, rfl, hs⟩
      · exact Traces.fault trivial
      · simp only [List.mem_cons, List.not_mem_nil, or_false] at hs
        rcases hs with rfl | rfl | rfl | rfl <;> exact Traces.fault trivial
    | ok c => exact Traces.move (g := id) ⟨.loop ev, hp _ _ trivial, .loop hen.1 hen.2 hc⟩

end Functions

end World

end AsioUtp
