/-
Operations in the middle of which the socket is closed. `do_write` and
`on_receive` call libutp while their handler waits in its slot; libutp sends
packets before it returns; and a send that fails closes every socket of the
context, which empties the slot. Both then post from the slot without asking.

What the send closes is known (`Shuts`, `Falls`). From that it follows for
every call of `utp_write` and `utp_read_drained` when the operation completes,
and completes once (`completes_once_iff`).
-/
import AsioUtp.FatalSend

namespace AsioUtp

namespace World

open Machine

/-! ## The calls of `utp_write` -/

/-- The calls for one buffer, each with what it is given and what it answers; what is left of the
buffer, the replies not used, and `still_writable`. -/
def bufferCalls : Nat → List UInt8 → List WriteReply →
    List (List UInt8 × WriteReply) × List UInt8 × List WriteReply × Bool
  | 0, b, rs => ([], b, rs, false)
  | turns + 1, b, rs =>
    if b = [] then ([], b, rs, true)
    else
      let r := rs.headD {}
      if r.accepted < (b.drop r.accepted).length then ([(b, r)], b.drop r.accepted, rs.tail, false)
      else
        let (calls, rest) := bufferCalls turns (b.drop r.accepted) rs.tail
        ((b, r) :: calls, rest)

/-- The calls of a whole `do_write`, in order; what is left of the buffers, and `still_writable`. -/
def writeCalls : List (List UInt8) → List WriteReply →
    List (List UInt8 × WriteReply) × List (List UInt8) × Bool
  | [], _ => ([], [], true)
  | b :: bs, rs =>
    let (calls, b', rs', stillWritable) := bufferCalls (b.length + 1) b rs
    if stillWritable then
      let (calls', bs', stillWritable') := writeCalls bs rs'
      (calls ++ calls', b' :: bs', stillWritable')
    else (calls, b' :: bs, false)

/-- One turn of the loop. -/
def writeCall (i u : Nat) (w : World) (c : List UInt8 × WriteReply) : Except Fault World := do
  let w ← w.utpWrite u c.1 c.2
  return w.setImpl i { w.impls i with bytesSent := (w.impls i).bytesSent + c.2.accepted }

theorem drop_lt_of_taken {b : List UInt8} {n turns : Nat} (hb : b ≠ []) (hn : ¬ n < (b.drop n).length)
    (h : b.length < turns + 1) : (b.drop n).length < turns := by
  have hpos := List.length_pos_iff.2 hb
  rw [List.length_drop] at hn ⊢
  omega

theorem writeBuffer_eq {i u turns : Nat} {w : World} {b : List UInt8} {rs : List WriteReply} (h : b.length < turns) :
    writeBuffer i u turns w b rs =
      (do let w' ← (bufferCalls turns b rs).1.foldlM (writeCall i u) w
          return (w', (bufferCalls turns b rs).2)) := by
  induction turns generalizing w b rs with
  | zero => cases h
  | succ turns ih =>
    rw [writeBuffer, bufferCalls]
    by_cases hb : b = []
    · rw [if_pos hb, if_pos hb]
      rfl
    · rw [if_neg hb, if_neg hb]
      dsimp only
      by_cases hr : (rs.headD {}).accepted < (b.drop (rs.headD {}).accepted).length
      · simp only [hr, if_true, List.foldlM_cons, List.foldlM_nil, writeCall, bind_assoc, pure_bind]
      · simp only [hr, if_false, List.foldlM_cons, writeCall, bind_assoc, pure_bind, ih (drop_lt_of_taken hb hr h)]

theorem writeBuffers_eq {i u : Nat} {w : World} {bs : List (List UInt8)} {rs : List WriteReply} :
    writeBuffers i u w bs rs =
      (do let w' ← (writeCalls bs rs).1.foldlM (writeCall i u) w
          return (w', (writeCalls bs rs).2)) := by
  induction bs generalizing w rs with
  | nil => rfl
  | cons b bs ih =>
    rw [writeBuffers, writeCalls, writeBuffer_eq (Nat.lt_succ_self _)]
    obtain ⟨calls, b', rs', still⟩ := bufferCalls (b.length + 1) b rs
    cases still with
    | false => simp
    | true => simp [ih, List.foldlM_append]

/-- Some call accepts fewer bytes than then remain of its buffer. -/
def Unfinished (calls : List (List UInt8 × WriteReply)) : Prop := ∃ c ∈ calls, c.2.accepted < c.1.length - c.2.accepted

theorem unfinished_cons {c : List UInt8 × WriteReply} {calls : List (List UInt8 × WriteReply)} :
    Unfinished (c :: calls) ↔ c.2.accepted < c.1.length - c.2.accepted ∨ Unfinished calls := by
  simp [Unfinished]

theorem bufferCalls_unfinished {turns : Nat} {b : List UInt8} {rs : List WriteReply} (h : b.length < turns) :
    (bufferCalls turns b rs).2.2.2 = false ↔ Unfinished (bufferCalls turns b rs).1 := by
  induction turns generalizing b rs with
  | zero => cases h
  | succ turns ih =>
    rw [bufferCalls]
    by_cases hb : b = []
    · simp [hb, Unfinished]
    · rw [if_neg hb]
      dsimp only
      by_cases hr : (rs.headD {}).accepted < (b.drop (rs.headD {}).accepted).length
      · rw [if_pos hr, unfinished_cons, ← List.length_drop]
        exact iff_of_true rfl (.inl hr)
      · rw [if_neg hr, unfinished_cons, ← List.length_drop, ← ih (drop_lt_of_taken hb hr h), or_iff_right hr]

/-- `do_write` is left with something to write exactly if a call of `utp_write` falls short. -/
theorem writeCalls_unfinished (bs : List (List UInt8)) (rs : List WriteReply) :
    (writeCalls bs rs).2.2 = false ↔ Unfinished (writeCalls bs rs).1 := by
  induction bs generalizing rs with
  | nil => simp [writeCalls, Unfinished]
  | cons b bs ih =>
    have hb : (bufferCalls (b.length + 1) b rs).2.2.2 = false ↔ Unfinished (bufferCalls (b.length + 1) b rs).1 :=
      bufferCalls_unfinished (Nat.lt_succ_self _)
    rw [writeCalls]
    generalize bufferCalls (b.length + 1) b rs = calls at hb ⊢
    obtain ⟨calls, b', rs', still⟩ := calls
    cases still with
    | false => exact hb
    | true =>
      have hnot : ¬ Unfinished calls := fun h => by cases hb.2 h
      have happend : Unfinished (calls ++ (writeCalls bs rs').1) ↔ Unfinished (writeCalls bs rs').1 := by
        simp only [Unfinished, List.mem_append, or_and_right, exists_or]
        exact or_iff_right hnot
      exact (ih rs').trans happend.symm

/-- What the sends made inside the calls answer. -/
def sendsOf (calls : List (List UInt8 × WriteReply)) : List ErrorCode := calls.flatMap (·.2.sends)

/-- Some call makes a send that fails. -/
def CallsFail (w : World) (calls : List (List UInt8 × WriteReply)) : Prop := ∃ c ∈ calls, w.Fails c.2.sends

theorem writeCall_shuts {i u : Nat} {w w' : World} {c : List UInt8 × WriteReply} (h : writeCall i u w c = .ok w') :
    Shuts w w' ∧ (w.Fails c.2.sends → ∀ j ∈ w.registeredSockets, w'.Shut j) ∧
      (¬ w.Fails c.2.sends → ∀ j, SameButSent (w.impls j) (w'.impls j)) := by
  simp only [writeCall, utpWrite, Except.bind_ok_iff, Except.pure_ok_iff] at h
  obtain ⟨w₂, ⟨-, -, w₁, hsends, rfl⟩, rfl⟩ := h
  obtain ⟨hs, hall⟩ := sends_shuts hsends
  have hdata : ∀ j, SameButSent (w₁.impls j) (Function.update w₁.impls i
      { w₁.impls i with bytesSent := (w₁.impls i).bytesSent + c.2.accepted } j) :=
    SameButSent.update (.tx _ _ _)
  have hlast : Shuts w₁
      ((w₁.setUtp u { w₁.utp u with written := (w₁.utp u).written ++ c.1.take c.2.accepted }).setImpl i
      { w₁.impls i with bytesSent := (w₁.impls i).bytesSent + c.2.accepted }) :=
    ⟨rfl, rfl, fun _ h => h, fun j => .inl (hdata j)⟩
  refine ⟨hs.trans hlast, fun hf j hj => hlast.shut (hall hf j hj), fun hf j => ?_⟩
  rw [sends_same hf] at hsends
  cases hsends
  exact hdata j

theorem writeCalls_shuts {i u : Nat} {calls : List (List UInt8 × WriteReply)} {w w' : World}
    (h : calls.foldlM (writeCall i u) w = .ok w') :
    Shuts w w' ∧ (w.CallsFail calls → ∀ j ∈ w.registeredSockets, w'.Shut j) ∧
      (¬ w.CallsFail calls → ∀ j, SameButSent (w.impls j) (w'.impls j)) := by
  induction calls generalizing w with
  | nil =>
    cases h
    refine ⟨.refl _, ?_, fun _ _ => .refl _⟩
    rintro ⟨c, hc, -⟩
    cases hc
  | cons c calls ih =>
    rw [List.foldlM_cons, Except.bind_ok_iff] at h
    obtain ⟨w₁, h1, h⟩ := h
    obtain ⟨hs1, hall1, hsame1⟩ := writeCall_shuts h1
    obtain ⟨hs, hall, hsame⟩ := ih h
    have hfails : ∀ c', w₁.Fails c' ↔ w.Fails c' := fun c' => by rw [Fails, Fails, hs1.alive]
    refine ⟨hs1.trans hs, fun hf j hj => ?_, fun hf j => ?_⟩
    · obtain ⟨c', hc', hf⟩ := hf
      rcases List.mem_cons.1 hc' with rfl | hc'
      · exact hs.shut (hall1 hf j hj)
      · exact hall ⟨c', hc', (hfails _).2 hf⟩ j (by rw [hs1.registered]; exact hj)
    · have h1 := hsame1 (fun hf1 => hf ⟨c, by simp, hf1⟩) j
      have h2 := hsame (fun ⟨c', hc', hf'⟩ => hf ⟨c', by simp [hc'], (hfails _).1 hf'⟩) j
      exact h1.trans h2

/-- The worlds agree on what the errors of a failed send depend on. -/
structure Alike (w w' : World) : Prop where
  registered : w'.registeredSockets = w.registeredSockets
  onClose : ∀ u, (w'.utp u).onClose = (w.utp u).onClose
  closed : ∀ j, (w'.impls j).closed = (w.impls j).closed
  utpSocket : ∀ j, (w'.impls j).utpSocket = (w.impls j).utpSocket
  gotEof : ∀ j, (w'.impls j).gotEof = (w.impls j).gotEof

theorem Alike.causedBy {w w' : World} (h : Alike w w') {ec e : ErrorCode} : w'.CausedBy ec e ↔ w.CausedBy ec e := by
  simp only [CausedBy, closesOn, SocketImpl.closesUtp, h.registered, h.onClose, h.closed, h.utpSocket, h.gotEof]

theorem writeCall_alike {i u : Nat} {w w' : World} {c : List UInt8 × WriteReply} (h : writeCall i u w c = .ok w')
    (hf : ¬ w.Fails c.2.sends) : Alike w w' := by
  obtain ⟨hs, -, hsame⟩ := writeCall_shuts h
  have hsame := hsame hf
  refine ⟨hs.registered, fun u' => ?_, fun j => (hsame j).closed, fun j => (hsame j).utpSocket,
    fun j => (hsame j).gotEof⟩
  simp only [writeCall, utpWrite, sends_same hf, Except.bind_ok_iff, Except.pure_ok_iff] at h
  obtain ⟨w₂, ⟨-, -, w₁, hsends, rfl⟩, rfl⟩ := h
  cases hsends
  show (Function.update w.utp u _ u').onClose = _
  exact update_field UtpSocket.onClose (by rfl) u'

/-- The first send that fails, of all the calls make, closes the sockets and sets the error. -/
theorem writeCalls_caused {i u : Nat} {calls : List (List UInt8 × WriteReply)} {w w' : World} {ec : ErrorCode}
    (h : calls.foldlM (writeCall i u) w = .ok w') (halive : w.ctx.alive = true)
    (hfind : (sendsOf calls).find? fatal = some ec) {j : Nat} (hj : j ∈ w.registeredSockets)
    (hopen : (w.impls j).closed = false) {slot : Slot} {y : Handler} (hy : (w.impls j).handlers slot = some y) :
    ∃ e, w.CausedBy ec e ∧ { impl := some j, slot, handler := y, ec := e } ∈ w'.posted := by
  induction calls generalizing w with
  | nil => cases hfind
  | cons c calls ih =>
    rw [List.foldlM_cons, Except.bind_ok_iff] at h
    obtain ⟨w₁, h1, h⟩ := h
    rw [sendsOf, List.flatMap_cons, List.find?_append] at hfind
    cases hc : c.2.sends.find? fatal with
    | some e =>
      rw [hc] at hfind
      cases hfind
      obtain ⟨w₀, hsends, hposted⟩ : ∃ w₀, w.sends c.2.sends = .ok w₀ ∧ w₁.posted = w₀.posted := by
        simp only [writeCall, utpWrite, Except.bind_ok_iff, Except.pure_ok_iff] at h1
        obtain ⟨w₂, ⟨-, -, w₀, hsends, rfl⟩, rfl⟩ := h1
        exact ⟨w₀, hsends, rfl⟩
      obtain ⟨e, he, hmem⟩ := sends_caused halive hc hsends hj hopen hy
      exact ⟨e, he, (writeCalls_shuts h).1.posted _ (hposted ▸ hmem)⟩
    | none =>
      rw [hc] at hfind
      have hf : ¬ w.Fails c.2.sends := fun hf => by
        obtain ⟨-, e, hmem, hfatal⟩ := hf
        exact List.find?_eq_none.1 hc e hmem hfatal
      obtain ⟨hs, -, hsame⟩ := writeCall_shuts h1
      have hsame := hsame hf j
      obtain ⟨e, he, hmem⟩ := ih h (hs.alive.trans halive) hfind (hs.registered ▸ hj) (hsame.closed.trans hopen)
        (by rw [hsame.handlers]; exact hy)
      exact ⟨e, (writeCall_alike h1 hf).causedBy.1 he, hmem⟩

theorem writeCall_ok {i u : Nat} {w w₁ : World} {c : List UInt8 × WriteReply} (hw : Sound w)
    (hu : (w.impls i).utpSocket = some u) (hsends : w.sends c.2.sends = .ok w₁) (hw1 : Sound w₁) :
    ∃ w', writeCall i u w c = .ok w' ∧ Sound w' := by
  have halive := (hw.handles.attached i u hu).2.1
  set w₂ := w₁.setUtp u { w₁.utp u with written := (w₁.utp u).written ++ c.1.take c.2.accepted } with hw2
  have hwrote : Moves (fun _ _ => True) w₁ w₂ := ⟨.wrote u, trivial, .wrote⟩
  have hdata : Moves (fun _ _ => True) w₂
      (w₂.setImpl i { w₂.impls i with bytesSent := (w₂.impls i).bytesSent + c.2.accepted }) :=
    ⟨.data i, trivial, .data (.tx _ _ _)⟩
  refine ⟨_, ?_, sound_move (sound_move hw1 hwrote) hdata⟩
  simp only [writeCall, utpWrite, Except.require, halive, if_true, hsends, Except.ok_bind, pure_bind, ← hw2]
  rfl

theorem writeCalls_quiet {i u : Nat} {calls : List (List UInt8 × WriteReply)} {w : World} (hw : Sound w)
    (hu : (w.impls i).utpSocket = some u) (hf : ¬ w.CallsFail calls) :
    ∃ w', calls.foldlM (writeCall i u) w = .ok w' := by
  induction calls generalizing w with
  | nil => exact ⟨w, rfl⟩
  | cons c calls ih =>
    obtain ⟨w₁, h1, hw1⟩ := writeCall_ok hw hu (sends_same fun hc => hf ⟨c, by simp, hc⟩) hw
    obtain ⟨hs, -, -⟩ := writeCall_shuts h1
    obtain ⟨w', h2⟩ := ih hw1 (by rw [hs.utpSocket]; exact hu) fun ⟨c', hc', hf'⟩ =>
      hf ⟨c', by simp [hc'], by rwa [Fails, hs.alive] at hf'⟩
    exact ⟨w', by rw [List.foldlM_cons, h1, Except.ok_bind, h2]⟩

theorem writeCalls_closable {i u : Nat} {calls : List (List UInt8 × WriteReply)} {w : World} (hw : Closable w)
    (hu : (w.impls i).utpSocket = some u) : ∃ w', calls.foldlM (writeCall i u) w = .ok w' := by
  induction calls generalizing w with
  | nil => exact ⟨w, rfl⟩
  | cons c calls ih =>
    obtain ⟨w₀, hsends, hw0, -⟩ := sends_ok hw c.2.sends
    obtain ⟨w₁, h1, hw1⟩ := writeCall_ok hw.sound hu hsends hw0.sound
    obtain ⟨hs, -, -⟩ := writeCall_shuts h1
    obtain ⟨w', h2⟩ := ih (hs.closable hw hw1) (by rw [hs.utpSocket]; exact hu)
    exact ⟨w', by rw [List.foldlM_cons, h1, Except.ok_bind, h2]⟩

/-! ## `do_write` -/

/-- When a write on socket `i` completes: it is not attached; or no send of the calls fails; or
libutp leaves the write unfinished, the socket is open, and no closed socket has an operation
pending. -/
def WriteSafe (w : World) (i : Nat) (bufs : List (List UInt8)) (rs : List WriteReply) : Prop :=
  (w.impls i).utpSocket = none ∨ ¬ w.CallsFail (writeCalls bufs rs).1 ∨
    Unfinished (writeCalls bufs rs).1 ∧ (w.impls i).closed = false ∧
      ∀ j ∈ w.registeredSockets, (w.impls j).closed = true → ∀ slot, (w.impls j).handlers slot = none

/-- The handler of call `k`, of an operation on socket `i`, has its place: it waits in its slot, or is
posted; and if the socket was closed in the meantime, it is posted with the error of the first of the
sends `ecs` that fails, or of one made inside the `utp_close` of a socket which that closes. -/
def Kept (w w' : World) (i : Nat) (slot : Slot) (k : Nat) (ecs : List ErrorCode) : Prop :=
  ((∃ x, (w'.impls i).handlers slot = some x ∧ x.op = k) ∨
    ∃ c ∈ w'.posted, c.impl = some i ∧ c.slot = slot ∧ c.handler.op = k) ∧
  ((w.impls i).closed = false → (w'.impls i).closed = true →
    ∃ c ∈ w'.posted, c.impl = some i ∧ c.slot = slot ∧ c.handler.op = k ∧
      ∃ ec, ecs.find? fatal = some ec ∧ w.CausedBy ec c.ec)

theorem setupOp_ok (w : World) (i : Nat) (slot : Slot) (x : Handler) : ∃ w', w.setupOp i slot x = .ok w' := by
  obtain ⟨t, m, hinc⟩ := Context.increment_spec w.ctx
  exact ⟨_, by rw [setupOp, hinc]; rfl⟩

/-- The end of `do_write`. -/
def endWrite (w : World) (i : Nat) (bufs : List (List UInt8)) (stillWritable : Bool) : Except Fault World :=
  let w := w.setImpl i { w.impls i with txBuffers := bufs }
  if stillWritable then do
    let w ← w.postOp i .send .success (w.impls i).bytesSent []
    return w.setImpl i { w.impls i with bytesSent := 0 }
  else return w

theorem doWrite_detached {w : World} {i : Nat} (hnone : (w.impls i).handlers .send = none)
    (hu : (w.impls i).utpSocket = none) (x : Handler) (rs : List WriteReply) :
    w.doWrite i x rs = .ok (w.post { impl := some i, slot := .send, handler := x, ec := .badDescriptor }) := by
  simp only [doWrite, Except.require, hnone, if_true, Except.ok_bind, hu]
  rfl

theorem doWrite_eq {w w₁ : World} {i u : Nat} {x : Handler} {rs : List WriteReply}
    (hnone : (w.impls i).handlers .send = none) (hu : (w.impls i).utpSocket = some u)
    (hsetup : w.setupOp i .send x = .ok w₁) :
    w.doWrite i x rs =
      (do let w₂ ← (writeCalls (w.impls i).txBuffers rs).1.foldlM (writeCall i u) w₁
          w₂.endWrite i (writeCalls (w.impls i).txBuffers rs).2.1 (writeCalls (w.impls i).txBuffers rs).2.2) := by
  have htx : (w₁.impls i).txBuffers = (w.impls i).txBuffers := by
    rw [(setupOp_impl hsetup).1, Function.update_self]
    rfl
  simp only [doWrite, Except.require, hnone, if_true, Except.ok_bind, hu, hsetup, writeBuffers_eq, htx, bind_assoc,
    pure_bind]
  rfl

theorem endWrite_unfinished (w : World) (i : Nat) (bufs : List (List UInt8)) :
    ∃ w', w.endWrite i bufs false = .ok w' ∧ SameButSent (w.impls i) (w'.impls i) ∧ w'.posted = w.posted :=
  ⟨_, rfl, SameButSent.update (.tx _ _ _) i, rfl⟩

theorem endWrite_finished {w : World} {i : Nat} (bufs : List (List UInt8)) {y : Handler}
    (hy : (w.impls i).handlers .send = some y) :
    ∃ w' c, w.endWrite i bufs true = .ok w' ∧ c ∈ w'.posted ∧ c.impl = some i ∧ c.slot = .send ∧ c.handler = y ∧
      (w'.impls i).closed = (w.impls i).closed := by
  simp only [endWrite, postOp, setImpl, Function.update_self, hy]
  refine ⟨_, _, rfl, List.mem_append_right _ (List.mem_singleton.2 rfl), rfl, rfl, rfl, ?_⟩
  simp [post, SocketImpl.setHandler]

theorem endWrite_empty {w : World} {i : Nat} {bufs : List (List UInt8)}
    (hy : (w.impls i).handlers .send = none) : w.endWrite i bufs true = .error .emptyHandler := by
  simp only [endWrite, postOp, setImpl, Function.update_self, hy]
  rfl

/-- Through whatever the sends close, the handler of the write keeps its place. -/
theorem writeCalls_kept {w w₁ w₂ w' : World} {i u : Nat} {calls : List (List UInt8 × WriteReply)} {y : Handler}
    (hlike : Alike w w₁) (hi : i ∈ w.registeredSockets) (hy : (w₁.impls i).handlers .send = some y)
    (h : calls.foldlM (writeCall i u) w₁ = .ok w₂) (hsame : SameButSent (w₂.impls i) (w'.impls i))
    (hposted : w'.posted = w₂.posted) : Kept w w' i .send y.op (sendsOf calls) := by
  obtain ⟨hs, -, hquiet⟩ := writeCalls_shuts h
  rcases hs.impl i with hs | hs
  · have hs := hs.trans hsame
    refine ⟨.inl ⟨y, by rw [hs.handlers]; exact hy, rfl⟩, fun hopen hclosed => ?_⟩
    rw [hs.closed, hlike.closed, hopen] at hclosed
    cases hclosed
  · -- The socket was closed, so a send failed.
    have hfail : w₁.CallsFail calls := by
      by_contra hf
      have hclosed := hs.shut.1
      rw [(hquiet hf i).closed, hs.opened] at hclosed
      cases hclosed
    obtain ⟨c, hc, halive, e, he, hfatal⟩ := hfail
    obtain ⟨ec, hfind⟩ : ∃ ec, (sendsOf calls).find? fatal = some ec :=
      Option.isSome_iff_exists.1 (List.find?_isSome.2 ⟨e, List.mem_flatMap.2 ⟨c, hc, he⟩, hfatal⟩)
    obtain ⟨e, he, hmem⟩ := writeCalls_caused h halive hfind (hlike.registered ▸ hi) hs.opened hy
    rw [← hposted] at hmem
    exact ⟨.inr ⟨_, hmem, rfl, rfl, rfl⟩, fun _ _ => ⟨_, hmem, rfl, rfl, rfl, ec, hfind, hlike.causedBy.1 he⟩⟩

theorem setupOp_alike {w w₁ : World} {i : Nat} {slot : Slot} {x : Handler} (h : w.setupOp i slot x = .ok w₁) :
    Alike w w₁ := by
  simp only [setupOp, Except.bind_ok_iff, Except.pure_ok_iff] at h
  obtain ⟨c, -, rfl⟩ := h
  exact ⟨rfl, fun _ => rfl, update_field SocketImpl.closed rfl, update_field SocketImpl.utpSocket rfl,
    update_field SocketImpl.gotEof rfl⟩

theorem setupOp_send {w w₁ : World} {i : Nat} {x : Handler} (hw : Sound w) (hi : i ∈ w.registeredSockets)
    (hnone : (w.impls i).handlers .send = none) (h : w.setupOp i .send x = .ok w₁) :
    Sound w₁ ∧ w₁.ctx.alive = w.ctx.alive ∧ w₁.registeredSockets = w.registeredSockets ∧
      w₁.impls = Function.update w.impls i ((w.impls i).setHandler .send (some { x with after := true })) := by
  simp only [setupOp, Except.bind_ok_iff, Except.pure_ok_iff] at h
  obtain ⟨c, hinc, rfl⟩ := h
  refine ⟨?_, (Context.increment_alive hinc).1, rfl, rfl⟩
  have hm : Moves (fun _ _ => True) w _ :=
    ⟨.setup i .send x, trivial, .setup hi hnone (by simp) (by simp) (by simp) hinc⟩
  exact sound_move hw hm

theorem callsFail_alive {w w' : World} (h : w'.ctx.alive = w.ctx.alive) (calls : List (List UInt8 × WriteReply)) :
    w'.CallsFail calls ↔ w.CallsFail calls := by
  simp only [CallsFail, Fails, h]

/-- A write that ends, although a send fails inside, is left unfinished by libutp and on an open
socket, and no closed socket has an operation pending. -/
theorem doWrite_failed {w w₁ w₂ w' : World} {i u : Nat} {x : Handler} {calls : List (List UInt8 × WriteReply)}
    {bufs : List (List UInt8)} {still : Bool} (hi : i ∈ w.registeredSockets)
    (hreg : w₁.registeredSockets = w.registeredSockets)
    (himpl : w₁.impls = Function.update w.impls i ((w.impls i).setHandler .send (some { x with after := true })))
    (hcalls : calls.foldlM (writeCall i u) w₁ = .ok w₂) (hfail : w₁.CallsFail calls)
    (hend : w₂.endWrite i bufs still = .ok w') :
    still = false ∧ (w.impls i).closed = false ∧
      ∀ j ∈ w.registeredSockets, (w.impls j).closed = true → ∀ slot, (w.impls j).handlers slot = none := by
  obtain ⟨hs, hall, -⟩ := writeCalls_shuts hcalls
  have hshut : ∀ j ∈ w.registeredSockets, w₂.Shut j := fun j hj => hall hfail j (by rw [hreg]; exact hj)
  -- What was closed before is as it was, so its slots were empty already.
  have hidle : ∀ j ∈ w.registeredSockets, (w₁.impls j).closed = true → ∀ slot, (w₁.impls j).handlers slot = none := by
    intro j hj hc slot
    rw [← (hs.closed hc).handlers]
    exact (hshut j hj).2 slot
  have hself : w₁.impls i = (w.impls i).setHandler .send (some { x with after := true }) := by
    rw [himpl, Function.update_self]
  have hopen : (w.impls i).closed = false := by
    cases hc : (w.impls i).closed with
    | false => rfl
    | true =>
      have := hidle i hi (by rw [hself]; exact hc) .send
      rw [hself] at this
      simp at this
  refine ⟨?_, hopen, fun j hj hc => ?_⟩
  · cases still with
    | false => rfl
    | true =>
      rw [endWrite_empty ((hshut i hi).2 .send)] at hend
      cases hend
  · have hji : j ≠ i := fun hji => by rw [hji, hopen] at hc; cases hc
    have hsame : w₁.impls j = w.impls j := by rw [himpl, Function.update_of_ne hji]
    have := hidle j hj
    rw [hsame] at this
    exact this hc

theorem Regular.closable_setup {w w₁ : World} {i : Nat} {x : Handler} (hw : Regular w) (hw1 : Sound w₁)
    (himpl : w₁.impls = Function.update w.impls i ((w.impls i).setHandler .send (some { x with after := true })))
    (hopen : (w.impls i).closed = false)
    (hidle : ∀ j ∈ w.registeredSockets, (w.impls j).closed = true → ∀ slot, (w.impls j).handlers slot = none) :
    Closable w₁ := by
  have hclosed : ∀ j, (w₁.impls j).closed = (w.impls j).closed := fun j => by
    rw [himpl]
    exact update_field SocketImpl.closed (by rfl) j
  refine ⟨hw1, fun j hj => ?_, fun j hj slot => ?_⟩
  · have hd : (w₁.impls j).decrementClose = (w.impls j).decrementClose := by
      rw [himpl]
      exact update_field SocketImpl.decrementClose (by rfl) j
    rw [hd]
    exact hw.settled j (hclosed j ▸ hj)
  · rw [hclosed] at hj
    have hji : j ≠ i := fun hji => by rw [hji, hopen] at hj; cases hj
    rw [himpl, Function.update_of_ne hji]
    by_cases hjreg : j ∈ w.registeredSockets
    · exact hidle j hjreg hj slot
    · exact (hw.placed.idle j hjreg).2.2 slot

/-- **When a write completes**: exactly under the condition, and then its handler has its place. -/
theorem doWrite_iff {w : World} {i : Nat} (x : Handler) {rs : List WriteReply} (hw : Regular w)
    (hi : i ∈ w.registeredSockets) (hnone : (w.impls i).handlers .send = none) :
    (∃ w', w.doWrite i x rs = .ok w' ∧ Kept w w' i .send x.op (sendsOf (writeCalls (w.impls i).txBuffers rs).1)) ↔
      w.WriteSafe i (w.impls i).txBuffers rs := by
  cases hu : (w.impls i).utpSocket with
  | none =>
    refine ⟨fun _ => .inl hu, fun _ => ?_⟩
    refine ⟨_, doWrite_detached hnone hu x rs,
      .inr ⟨_, List.mem_append_right _ (List.mem_singleton.2 rfl), rfl, rfl, rfl⟩, fun ho hc => ?_⟩
    have hc : (w.impls i).closed = true := hc
    rw [ho] at hc
    cases hc
  | some u =>
    obtain ⟨w₁, hsetup⟩ := setupOp_ok w i .send x
    obtain ⟨hw1, halive, hreg, himpl⟩ := setupOp_send hw.sound hi hnone hsetup
    have hself : w₁.impls i = (w.impls i).setHandler .send (some { x with after := true }) := by
      rw [himpl, Function.update_self]
    have hslot : (w₁.impls i).handlers .send = some { x with after := true } := by rw [hself]; simp
    have hlike := setupOp_alike hsetup
    have hu1 : (w₁.impls i).utpSocket = some u := by rw [hself]; exact hu
    rw [doWrite_eq hnone hu hsetup]
    have hunfinished := writeCalls_unfinished (w.impls i).txBuffers rs
    generalize hcalls : writeCalls (w.impls i).txBuffers rs = calls at hunfinished ⊢
    have hfails := callsFail_alive halive calls.1
    constructor
    · rintro ⟨w', hok, -⟩
      rw [Except.bind_ok_iff] at hok
      obtain ⟨w₂, hfold, hend⟩ := hok
      rw [WriteSafe, hcalls]
      by_cases hf : w.CallsFail calls.1
      · obtain ⟨hstill, hrest⟩ := doWrite_failed hi hreg himpl hfold (hfails.2 hf) hend
        exact .inr (.inr ⟨hunfinished.1 hstill, hrest⟩)
      · exact .inr (.inl hf)
    · intro hsafe
      rw [WriteSafe, hcalls] at hsafe
      rcases hsafe with hnone' | hquiet | ⟨hstill, hopen, hidle⟩
      · rw [hu] at hnone'
        cases hnone'
      · obtain ⟨w₂, hfold⟩ := writeCalls_quiet hw1 hu1 fun hf => hquiet (hfails.1 hf)
        obtain ⟨hs, -, hsame⟩ := writeCalls_shuts hfold
        have hsame := hsame (fun hf => hquiet (hfails.1 hf)) i
        rw [hfold, Except.ok_bind]
        cases calls.2.2 with
        | false =>
          obtain ⟨w', hend, hsent, hposted⟩ := endWrite_unfinished w₂ i calls.2.1
          exact ⟨w', hend, writeCalls_kept (y := { x with after := true }) hlike hi hslot hfold hsent hposted⟩
        | true =>
          obtain ⟨w', c, hend, hmem, h1, h2, h3, h4⟩ :=
            endWrite_finished calls.2.1 (by rw [hsame.handlers]; exact hslot)
          refine ⟨w', hend, .inr ⟨c, hmem, h1, h2, by rw [h3]⟩, fun ho hc => ?_⟩
          rw [h4, hsame.closed, hlike.closed, ho] at hc
          cases hc
      · obtain ⟨w₂, hfold⟩ := writeCalls_closable (hw.closable_setup hw1 himpl hopen hidle) hu1
        rw [hfold, Except.ok_bind, hunfinished.2 hstill]
        obtain ⟨w', hend, hsent, hposted⟩ := endWrite_unfinished w₂ i calls.2.1
        exact ⟨w', hend, writeCalls_kept (y := { x with after := true }) hlike hi hslot hfold hsent hposted⟩

/-! ## `on_receive` -/

/-- When a read pending on socket `i` completes with the data received: no send of
`utp_read_drained` fails, or that is not called, since the read's first buffer is too small. -/
def ReceiveSafe (w : World) (i : Nat) (buf : List UInt8) (ecs : List ErrorCode) : Prop :=
  ¬ w.Fails ecs ∨ ((w.impls i).rxBuffers.headD []).length < buf.length

theorem onReceive_pending {w : World} {i u : Nat} {x : Handler} (buf : List UInt8) (ecs : List ErrorCode)
    (hw : Sound w) (hr : Reading w) (hu : (w.impls i).utpSocket = some u)
    (hx : (w.impls i).handlers .recv = some x) :
    ∃ total data, w.onReceive i buf ecs =
      (if ((w.impls i).rxBuffers.headD []).length < buf.length then .ok (w.setImpl i (fill (w.impls i) buf))
        else (w.setImpl i (fill (w.impls i) buf)).sends ecs) >>= fun w' => w'.postOp i .recv .success total data := by
  obtain ⟨hqueue, hbufs⟩ := hr i (by rw [Pending, hx]; simp)
  have halive := (hw.handles.attached i u hu).2.1
  refine ⟨(fillBuffers (w.impls i).rxBuffers buf).2.1,
    (fill (w.impls i) buf).rxBuffers.flatten.take (fillBuffers (w.impls i).rxBuffers buf).2.1, ?_⟩
  simp only [onReceive, hx, hqueue, Except.require, if_true, Except.ok_bind, drainedIf]
  congr 1
  cases hds : (w.impls i).rxBuffers with
  | nil =>
    rw [hds] at hbufs
    exact absurd rfl hbufs
  | cons d ds =>
    rw [fillBuffers_cons]
    by_cases hlt : d.length < buf.length
    · have hne : ¬ min d.length buf.length = buf.length := by omega
      simp [hlt, hne]
    · have heq : min d.length buf.length = buf.length := by omega
      have hfill : (fill (w.impls i) buf).utpSocket = some u := hu
      simp [hlt, heq, utpReadDrained, hfill, Except.require, setImpl, halive]

/-- **When a pending read completes**: exactly under the condition, and then its handler is posted. -/
theorem onReceive_iff {w : World} {i u : Nat} {x : Handler} {buf : List UInt8} {ecs : List ErrorCode}
    (hw : Sound w) (hr : Reading w) (hi : i ∈ w.registeredSockets) (hu : (w.impls i).utpSocket = some u)
    (hx : (w.impls i).handlers .recv = some x) :
    (∃ w', w.onReceive i buf ecs = .ok w' ∧ Kept w w' i .recv x.op ecs) ↔ w.ReceiveSafe i buf ecs := by
  obtain ⟨total, data, heq⟩ := onReceive_pending buf ecs hw hr hu hx
  rw [heq]
  set w₁ := w.setImpl i (fill (w.impls i) buf) with hw1
  have hself : w₁.impls i = fill (w.impls i) buf := by rw [hw1, setImpl_impls, Function.update_self]
  -- If nothing was closed in between, the handler is posted.
  have hpost : ∃ w', w₁.postOp i .recv .success total data = .ok w' ∧ Kept w w' i .recv x.op ecs := by
    have hslot : (w₁.impls i).handlers .recv = some x := by rw [hself]; exact hx
    refine ⟨_, by rw [postOp, hslot], .inr ⟨_, List.mem_append_right _ (List.mem_singleton.2 rfl), rfl, rfl, rfl⟩,
      fun ho hc => ?_⟩
    have hc : (w.impls i).closed = true := by
      simpa [post, setImpl, hself, SocketImpl.setHandler, fill] using hc
    rw [ho] at hc
    cases hc
  unfold ReceiveSafe
  by_cases hlt : ((w.impls i).rxBuffers.headD []).length < buf.length
  · simp only [hlt, if_true, Except.ok_bind, or_true, iff_true]
    exact hpost
  · simp only [hlt, if_false, or_false]
    by_cases hf : w.Fails ecs
    · refine iff_of_false ?_ (not_not.2 hf)
      rintro ⟨w', hok, -⟩
      rw [Except.bind_ok_iff] at hok
      obtain ⟨w₂, hsends, hok⟩ := hok
      obtain ⟨y, hy, -⟩ := postOp_ok hok
      have hshut := (sends_shuts hsends).2 hf i hi
      rw [hshut.2 .recv] at hy
      cases hy
    · have hf1 : ¬ w₁.Fails ecs := hf
      simp only [hf, not_false_iff, iff_true, sends_same hf1, Except.ok_bind]
      exact hpost

/-! ## Every run -/

/-- The event, whose sends answer `ecs`, ends, and the handler of call `k` is at one place, the one it should be at. -/
def CompletesOnce (w : World) (ev : Event) (i : Nat) (slot : Slot) (k : Nat) (ecs : List ErrorCode) : Prop :=
  ∃ w', w.step ev = .ok w' ∧ Kept w w' i slot k ecs ∧ w'.places k = 1

theorem Kept.places_pos {w w' : World} {i : Nat} {slot : Slot} {k : Nat} {ecs : List ErrorCode}
    (h : Kept w w' i slot k ecs) (hf : Formed w') (hp : Placed w') : 0 < w'.places k := by
  rcases h.1 with ⟨x, hx, rfl⟩ | ⟨c, hc, -, -, rfl⟩
  · have hheld : 0 < (w'.impls i).held (·.op == x.op) := by
      refine List.countP_pos_iff.2 ⟨slot, by cases slot <;> simp, ?_⟩
      rw [hx]
      simp
    have hle := sum_map_update hf.nodup (fun j => (w'.impls j).held (·.op == x.op)) (hp.registered hx) 0
    unfold places tally total
    omega
  · have hdue : 0 < w'.due (·.op == c.handler.op) := List.countP_pos_iff.2 ⟨c, by simp [hc], by simp⟩
    unfold places tally
    omega

/-- With the handler in its place, that it is there once is what holds of every call. -/
theorem completesOnce_iff {w : World} (hw : Sound w) (hn : Numbered w) {ev : Event} (hen : w.Enabled ev) {i : Nat}
    {slot : Slot} {k : Nat} {ecs : List ErrorCode} :
    w.CompletesOnce ev i slot k ecs ↔ ∃ w', w.step ev = .ok w' ∧ Kept w w' i slot k ecs := by
  constructor
  · rintro ⟨w', hs, hk, -⟩
    exact ⟨w', hs, hk⟩
  · rintro ⟨w', hs, hk⟩
    obtain ⟨hw', hn'⟩ := numbered_step hw hn hen hs
    have := hk.places_pos hw'.formed hn'.placed
    have := hn'.once k
    exact ⟨w', hs, hk, by omega⟩

theorem WriteSafe.congr {w w' : World} {i : Nat} {bufs : List (List UInt8)} {rs : List WriteReply} (h : Alike w w')
    (halive : w'.ctx.alive = w.ctx.alive) (hslots : ∀ j, j ≠ i → (w'.impls j).handlers = (w.impls j).handlers) :
    w'.WriteSafe i bufs rs ↔ w.WriteSafe i bufs rs := by
  have hidle : (w.impls i).closed = false →
      ((∀ j ∈ w.registeredSockets, (w.impls j).closed = true → ∀ slot, (w'.impls j).handlers slot = none) ↔
        ∀ j ∈ w.registeredSockets, (w.impls j).closed = true → ∀ slot, (w.impls j).handlers slot = none) := by
    intro hopen
    have hne : ∀ j, (w.impls j).closed = true → j ≠ i := fun j hc hji => by
      rw [hji, hopen] at hc
      cases hc
    constructor <;> intro h j hj hc slot
    · rw [← hslots j (hne j hc)]
      exact h j hj hc slot
    · rw [hslots j (hne j hc)]
      exact h j hj hc slot
  unfold WriteSafe
  rw [h.utpSocket, callsFail_alive halive, h.registered]
  simp only [h.closed]
  exact or_congr_right (or_congr_right (and_congr_right fun _ => and_congr_right hidle))

/-- `do_write` as it is called, from a world that differs in what the condition does not look at. -/
theorem doWrite_iff_of {w w₀ : World} {i : Nat} (x : Handler) (rs : List WriteReply) (hw : Regular w₀)
    (hi : i ∈ w₀.registeredSockets) (hnone : (w₀.impls i).handlers .send = none) (hlike : Alike w w₀)
    (halive : w₀.ctx.alive = w.ctx.alive) (hslots : ∀ j, j ≠ i → (w₀.impls j).handlers = (w.impls j).handlers) :
    (∃ w', w₀.doWrite i x rs = .ok w' ∧
      Kept w w' i .send x.op (sendsOf (writeCalls (w₀.impls i).txBuffers rs).1)) ↔
      w.WriteSafe i (w₀.impls i).txBuffers rs := by
  have hkept : ∀ w' ecs, Kept w w' i .send x.op ecs ↔ Kept w₀ w' i .send x.op ecs := fun w' ecs => by
    simp only [Kept, hlike.closed, hlike.causedBy]
  simp only [hkept]
  rw [doWrite_iff x hw hi hnone]
  exact WriteSafe.congr hlike halive hslots

/-- **An operation completes exactly once**, whatever the sends made in the middle of it answer, and
with the error of the send that closed its socket if one did, exactly when the condition holds: a
write that starts, a write that is resumed, and a read that data arrives for. -/
theorem completes_once_iff {w : World} (h : Reachable Enabled step {} w) :
    (∀ v bufs rs i, w.Enabled (.asyncWriteSome v bufs rs) → (w.sockets v).impl = some i →
      (w.CompletesOnce (.asyncWriteSome v bufs rs) i .send w.ops (sendsOf (writeCalls bufs rs).1) ↔
        w.WriteSafe i bufs rs)) ∧
    (∀ u rs i x, w.Enabled (.stateChange u .writable rs) → (w.utp u).userdata = some i →
      (w.impls i).handlers .send = some x →
      (w.CompletesOnce (.stateChange u .writable rs) i .send x.op
          (sendsOf (writeCalls (w.impls i).txBuffers rs).1) ↔ w.WriteSafe i (w.impls i).txBuffers rs)) ∧
    (∀ u buf ecs i x, w.Enabled (.onRead u buf ecs) → (w.utp u).userdata = some i →
      (w.impls i).handlers .recv = some x →
      (w.CompletesOnce (.onRead u buf ecs) i .recv x.op ecs ↔ w.ReceiveSafe i buf ecs)) := by
  obtain ⟨hw, hn⟩ := reachable_numbered h
  have hreg := reachable_regular h
  refine ⟨fun v bufs rs i hen hi => ?_, fun u rs i x hen hi hx => ?_, fun u buf ecs i x hen hi hx => ?_⟩
  · rw [completesOnce_iff hw hn hen]
    have hnumber : Move w .number w.numberOp := .number
    have hdata : Move w.numberOp (.data i) (w.numberOp.setImpl i { w.impls i with txBuffers := bufs }) :=
      .data (.tx _ _ _)
    have hstep : w.step (.asyncWriteSome v bufs rs) =
        (w.numberOp.setImpl i { w.impls i with txBuffers := bufs }).doWrite i w.nextHandler rs := by
      simp only [step, asyncWriteSome, numberOp, hi]
    have hnone : (w.impls i).handlers .send = none := not_not.1 (hen.2 i hi)
    rw [hstep]
    have hlike : Alike w (w.numberOp.setImpl i { w.impls i with txBuffers := bufs }) :=
      ⟨rfl, fun _ => rfl, update_field SocketImpl.closed rfl, update_field SocketImpl.utpSocket rfl,
        update_field SocketImpl.gotEof rfl⟩
    have hiff := doWrite_iff_of w.nextHandler rs ((hreg.move hnumber).move hdata) (hw.formed.sockets v i hi).1
      (by simpa using hnone) hlike rfl fun j hji => by rw [setImpl_impls, Function.update_of_ne hji]; rfl
    rw [setImpl_impls, Function.update_self] at hiff
    exact hiff
  · rw [completesOnce_iff hw hn hen]
    have hstep : w.step (.stateChange u .writable rs) =
        (w.setImpl i ((w.impls i).setHandler .send none)).doWrite i x rs := by
      simp only [step, stateChange, callbackOnStateChange, hi, onWritable, hx]
      cases (w.setImpl i ((w.impls i).setHandler .send none)).doWrite i x rs <;> rfl
    rw [hstep]
    have hlike : Alike w (w.setImpl i ((w.impls i).setHandler .send none)) :=
      ⟨rfl, fun _ => rfl, update_field SocketImpl.closed rfl, update_field SocketImpl.utpSocket rfl,
        update_field SocketImpl.gotEof rfl⟩
    have hiff := doWrite_iff_of x rs (hreg.move (.take hx)) (hw.formed.userdata u i hi) (by simp) hlike rfl
      fun j hji => by rw [setImpl_impls, Function.update_of_ne hji]
    rw [setImpl_impls, Function.update_self] at hiff
    exact hiff
  · have hu := hw.handles.back u i hen.2 hi
    rw [completesOnce_iff hw hn hen]
    have hstep : w.step (.onRead u buf ecs) = w.onReceive i buf ecs := by simp only [step, callbackOnRead, hi]
    rw [hstep]
    exact onReceive_iff hw (reachable_reading h) (hw.formed.userdata u i hi) hu hx

/-- A write that libutp takes nothing of, with a send that fails: the socket is closed in the middle
of it, and the write completes with the error, once. -/
theorem completes_once_unfinished :
    ∃ w, Run Enabled step {} [.socket, .bind 0, .asyncConnect 0 default [] [], .stateChange 0 .connect []] w ∧
      w.CompletesOnce (.asyncWriteSome 0 [[1, 2, 3]] [{ sends := [.other 5] }]) 0 .send w.ops [.other 5] := by
  obtain ⟨w, hrun, hen, hi, hopen, hreg⟩ := exists_run Enabled step {}
    [.socket, .bind 0, .asyncConnect 0 default [] [], .stateChange 0 .connect []]
    (fun w => w.Enabled (.asyncWriteSome 0 [[1, 2, 3]] [{ sends := [.other 5] }]) ∧ (w.sockets 0).impl = some 0 ∧
      (w.impls 0).closed = false ∧ w.registeredSockets = [0]) (by decide)
  refine ⟨w, hrun, ((completes_once_iff ⟨_, hrun⟩).1 0 _ _ 0 hen hi).2 (.inr (.inr ⟨?_, hopen, ?_⟩))⟩
  · exact ⟨([1, 2, 3], { sends := [.other 5] }), by decide, by decide⟩
  · intro j hj hc
    rw [hreg, List.mem_singleton] at hj
    rw [hj, hopen] at hc
    cases hc

/-- The same write taken whole, and a read that a chunk fills: a send fails in the middle of either,
and the handler that is then posted is gone from its slot. -/
theorem posts_empty_handler :
    ∃ w, Run Enabled step {}
        [.socket, .bind 0, .asyncConnect 0 default [] [], .stateChange 0 .connect [], .asyncReadSome 0 [[0, 0]]] w ∧
      w.Enabled (.asyncWriteSome 0 [[1, 2, 3]] [{ sends := [.other 5], accepted := 3 }]) ∧
      w.step (.asyncWriteSome 0 [[1, 2, 3]] [{ sends := [.other 5], accepted := 3 }]) = .error .emptyHandler ∧
      w.Enabled (.onRead 0 [7] [.other 5]) ∧ w.step (.onRead 0 [7] [.other 5]) = .error .emptyHandler :=
  ⟨_, run_of_exec rfl, by decide, rfl, by decide, rfl⟩

end World

end AsioUtp
