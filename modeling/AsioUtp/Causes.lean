/-
What every event posts, and why.

A completion that appears in an event has one of a few causes: the call could
not be made at all, the operation has come to its end, or the socket was
closed, by the user, by libutp, at the end of its stream, or because a send
failed. `Cause` lists them with everything the completion then carries, and
`completion_cause` says that the list is complete, sends that fail in the
middle of a call included.

What closing sockets posts is said once: `Drops E` is the relation between
the worlds before and after, where the sockets that fall do so for an error
in `E`. It is closed under composition, so the loops of `do_write` need no
more than one turn each.
-/
import AsioUtp.Accepting
import AsioUtp.Receive
import AsioUtp.Writing

namespace AsioUtp

namespace World

open Machine

/-! ## What closing posts -/

/-- The completion of what was pending on an open socket, closed for an error of `E`. -/
def Dropped (E : ErrorCode → Prop) (w : World) (c : Completion) : Prop :=
  ∃ j slot x e, c = { impl := some j, slot, handler := x, ec := e } ∧ j ∈ w.registeredSockets ∧
    (w.impls j).closed = false ∧ (w.impls j).handlers slot = some x ∧ E e

/-- From `w` to `w'` sockets may have been closed, for errors of `E`; no slot has been filled and nothing else
has been posted. -/
structure Drops (E : ErrorCode → Prop) (w w' : World) : Prop where
  registered : w'.registeredSockets = w.registeredSockets
  opened : ∀ j, (w'.impls j).closed = false → (w.impls j).closed = false
  slots : ∀ j slot x, (w'.impls j).handlers slot = some x → (w.impls j).handlers slot = some x
  posted : ∃ cs, w'.posted = w.posted ++ cs ∧ ∀ c ∈ cs, w.Dropped E c
  covers : Covers E w → Covers E w'

variable {E : ErrorCode → Prop}

theorem Drops.refl (w : World) : Drops E w w :=
  ⟨rfl, fun _ => id, fun _ _ _ => id, ⟨[], (List.append_nil _).symm, by simp⟩, id⟩

theorem Drops.dropped {w w' : World} (h : Drops E w w') {c : Completion} (hc : w'.Dropped E c) : w.Dropped E c := by
  obtain ⟨j, slot, x, e, rfl, hj, hopen, hx, he⟩ := hc
  exact ⟨j, slot, x, e, rfl, h.registered ▸ hj, h.opened j hopen, h.slots j slot x hx, he⟩

theorem Drops.trans {w w' w'' : World} (h : Drops E w w') (h' : Drops E w' w'') : Drops E w w'' := by
  obtain ⟨cs, hp, hcs⟩ := h.posted
  obtain ⟨cs', hp', hcs'⟩ := h'.posted
  refine ⟨h'.registered.trans h.registered, fun j hj => h.opened j (h'.opened j hj),
    fun j slot x hx => h.slots j slot x (h'.slots j slot x hx),
    ⟨cs ++ cs', by rw [hp', hp, List.append_assoc], fun c hc => ?_⟩, h'.covers ∘ h.covers⟩
  exact (List.mem_append.1 hc).elim (hcs c) fun hc => h.dropped (hcs' c hc)

theorem Falls.drops {w w' : World} {fs : List (Nat × ErrorCode)} (h : Falls E fs w w') : Drops E w w' := by
  refine ⟨h.registered, fun j hj => ?_, fun j slot x hx => ?_, ⟨_, h.posted, fun c hc => ?_⟩, h.covers⟩
  · by_cases hmem : j ∈ fs.map Prod.fst
    · rw [h.fallen j hmem] at hj
      cases hj
    · rwa [← h.others j hmem]
  · by_cases hmem : j ∈ fs.map Prod.fst
    · rw [h.fallen j hmem] at hx
      cases hx
    · rwa [← h.others j hmem]
  · obtain ⟨f, hf, hc⟩ := List.mem_flatMap.1 hc
    obtain ⟨slot, x, rfl, hx⟩ := mem_closings.1 hc
    exact ⟨f.1, slot, x, f.2, rfl, (h.opened f hf).1, (h.opened f hf).2, hx, h.errors f hf⟩

/-- Where no socket is open, none is closed. -/
theorem Drops.of_closed {E' : ErrorCode → Prop} {w w' : World} (h : Drops E' w w')
    (hall : ∀ j ∈ w.registeredSockets, (w.impls j).closed = true) : Drops E w w' := by
  have hnone : ∀ j ∈ w.registeredSockets, (w.impls j).closed ≠ false := fun j hj => by simp [hall j hj]
  obtain ⟨cs, hcs, hdropped⟩ := h.posted
  refine ⟨h.registered, h.opened, h.slots, ⟨cs, hcs, fun c hc => ?_⟩, fun _ j _ _ hj hopen => ?_⟩
  · obtain ⟨j, -, -, -, -, hj, hopen, -⟩ := hdropped c hc
    exact absurd hopen (hnone j hj)
  · exact absurd (h.opened j hopen) (hnone j (h.registered ▸ hj))

/-- The sends of a call into libutp. -/
theorem sends_drops {w w' : World} {ecs : List ErrorCode} (hE : Blamed E w ecs) (h : w.sends ecs = .ok w') :
    Drops E w w' := by
  obtain ⟨fs, hfs⟩ := sends_falls hE h
  exact hfs.drops

/-- Closing a socket posts what was pending on it, with the error given; the sends of `utp_close` may close others. -/
theorem closeWithError_posts {w w' : World} {i : Nat} {ec : ErrorCode} (hopen : (w.impls i).closed = false)
    (hE : ∀ u, (w.impls i).utpSocket = some u → (w.impls i).gotEof = false → Blamed E w (w.utp u).onClose)
    (h : w.closeWithError i ec = .ok w') :
    ∃ cs, w'.posted = w.posted ++ cs ∧ ∀ c ∈ cs, c ∈ closings (w.impls i) i ec ∨ w.Dropped E c := by
  obtain ⟨utp, heq, -⟩ := shutUtp_eq w i ec
  rcases closeWithErrorDepth_ok h with ⟨hc, -⟩ | ⟨-, -, rfl⟩ | ⟨u, w₁, -, hu, heof, hsends, hfinish⟩
  · rw [hopen] at hc
    cases hc
  · exact ⟨_, by rw [heq], fun c hc => .inl hc⟩
  · obtain ⟨-, c, -, rfl⟩ := finishClose_ok_iff.1 hfinish
    have hblamed : Blamed E (w.shutUtp i ec) (w.utp u).onClose :=
      (hE u hu heof).mono (by rw [heq]) fun hw => covers_shutUtp hw i ec
    obtain ⟨fs, hfs⟩ := sendsDepth_falls (fun _ _ _ _ h => ⟨_, h⟩) hblamed hsends
    obtain ⟨cs, hcs, hall⟩ := hfs.drops.posted
    refine ⟨closings (w.impls i) i ec ++ cs, by rw [hcs, heq, List.append_assoc], fun c hc => ?_⟩
    refine (List.mem_append.1 hc).imp id fun hc => ?_
    obtain ⟨j, slot, x, e, rfl, hj, hopen', hx, he⟩ := hall c hc
    rw [heq] at hj hopen' hx
    -- What falls now was not the socket that has been shut.
    have hji : j ≠ i := fun hji => by simp [hji] at hopen'
    simp only [Function.update_of_ne hji] at hopen' hx
    exact ⟨j, slot, x, e, rfl, hj, hopen', hx, he⟩

/-! ## Writing -/

theorem Covers.same {w w' : World} (h : Covers E w) (hreg : w'.registeredSockets = w.registeredSockets)
    (honClose : ∀ u, (w'.utp u).onClose = (w.utp u).onClose)
    (himpl : ∀ j, (w'.impls j).closed = (w.impls j).closed ∧ (w'.impls j).utpSocket = (w.impls j).utpSocket ∧
      (w'.impls j).gotEof = (w.impls j).gotEof) : Covers E w' := by
  intro j u e hj hopen hu he
  obtain ⟨hclosed, hutp, heof⟩ := himpl j
  rw [closesOn, SocketImpl.closesUtp, hutp, heof] at hu
  exact h j u e (hreg ▸ hj) (hclosed ▸ hopen) hu (honClose u ▸ he)

/-- Data changes, and nothing else. -/
theorem Drops.data {w w' : World} (hreg : w'.registeredSockets = w.registeredSockets) (hposted : w'.posted = w.posted)
    (honClose : ∀ u, (w'.utp u).onClose = (w.utp u).onClose)
    (himpl : ∀ j, SameButSent (w.impls j) (w'.impls j)) : Drops E w w' where
  registered := hreg
  opened j hj := by rwa [← (himpl j).closed]
  slots j slot x hx := by rwa [← (himpl j).handlers]
  posted := ⟨[], by rw [hposted, List.append_nil], by simp⟩
  covers h := h.same hreg honClose fun j => ⟨(himpl j).closed, (himpl j).utpSocket, (himpl j).gotEof⟩

theorem writeCall_drops {i u : Nat} {w w' : World} {c : List UInt8 × WriteReply} (hE : Blamed E w c.2.sends)
    (h : writeCall i u w c = .ok w') : Drops E w w' := by
  simp only [writeCall, utpWrite, Except.bind_ok_iff, Except.pure_ok_iff] at h
  obtain ⟨w₂, ⟨-, -, w₁, hsends, rfl⟩, rfl⟩ := h
  refine (sends_drops hE hsends).trans (.data rfl rfl (fun v => ?_) (SameButSent.update (.tx _ _ _)))
  by_cases hv : v = u
  · subst hv
    simp [setImpl]
  · simp [setImpl, hv]

theorem writeCalls_drops {i u : Nat} {calls : List (List UInt8 × WriteReply)} {w w' : World}
    (hE : Blamed E w (sendsOf calls)) (h : calls.foldlM (writeCall i u) w = .ok w') : Drops E w w' := by
  induction calls generalizing w E with
  | nil =>
    cases h
    exact .refl _
  | cons c calls ih =>
    rw [List.foldlM_cons, Except.bind_ok_iff] at h
    obtain ⟨w₁, h1, h⟩ := h
    rw [sendsOf, List.flatMap_cons] at hE
    have hfirst : Drops E w w₁ := writeCall_drops (fun ha ec hec => hE ha ec (by simp [hec])) h1
    obtain ⟨hs, hshut, -⟩ := writeCall_shuts h1
    refine hfirst.trans ?_
    by_cases hf : w.Fails c.2.sends
    · -- The calls after it find every socket closed.
      have hrest : Drops (fun _ => True) w₁ w' := ih (fun _ _ _ => ⟨trivial, fun _ _ _ _ _ _ _ _ => trivial⟩) h
      exact hrest.of_closed fun j hj => (hshut hf j (hs.registered ▸ hj)).1
    · refine ih (fun ha ec hec => ?_) h
      have halive : w.ctx.alive = true := hs.alive ▸ ha
      have hnone : c.2.sends.find? fatal = none := List.find?_eq_none.2 fun e he hfe => hf ⟨halive, e, he, hfe⟩
      exact (hE halive ec (by rw [List.find?_append, hnone]; exact hec)).imp_right hfirst.covers

theorem bufferCalls_sends (turns : Nat) (b : List UInt8) (rs : List WriteReply) :
    sendsOf (bufferCalls turns b rs).1 ++ (bufferCalls turns b rs).2.2.1.flatMap WriteReply.sends =
      rs.flatMap WriteReply.sends := by
  induction turns generalizing b rs with
  | zero => rfl
  | succ turns ih =>
    have hhead : (rs.headD {}).sends ++ rs.tail.flatMap WriteReply.sends = rs.flatMap WriteReply.sends := by
      cases rs <;> simp
    rw [bufferCalls]
    split
    · rfl
    · dsimp only
      split
      · simpa [sendsOf] using hhead
      · rw [← hhead, ← ih (b.drop (rs.headD {}).accepted) rs.tail]
        simp [sendsOf]

/-- The sends are made in the order of the replies, as many of them as are used. -/
theorem writeCalls_sends (bs : List (List UInt8)) (rs : List WriteReply) :
    ∃ rest, rs.flatMap WriteReply.sends = sendsOf (writeCalls bs rs).1 ++ rest := by
  induction bs generalizing rs with
  | nil => exact ⟨_, rfl⟩
  | cons b bs ih =>
    have hbuffer := bufferCalls_sends (b.length + 1) b rs
    rw [writeCalls]
    generalize bufferCalls (b.length + 1) b rs = r at hbuffer ⊢
    obtain ⟨calls, b', rs', still⟩ := r
    cases still with
    | false => exact ⟨_, hbuffer.symm⟩
    | true =>
      obtain ⟨rest, hrest⟩ := ih rs'
      refine ⟨rest, ?_⟩
      rw [← hbuffer]
      simp only [hrest, if_true]
      simp [sendsOf]

/-- The socket with `x` waiting for its write. -/
def writing (w : World) (i : Nat) (x : Handler) : World :=
  w.setImpl i ((w.impls i).setHandler .send (some { x with after := true }))

/-- The end of `do_write` posts the write that is in the slot by then, with what has been accepted of it, or nothing. -/
theorem endWrite_posts {w w' : World} {i : Nat} {bufs : List (List UInt8)} {still : Bool}
    (h : w.endWrite i bufs still = .ok w') :
    w'.posted = w.posted ∨ still = true ∧ ∃ y, (w.impls i).handlers .send = some y ∧
      w'.posted = w.posted ++
        [{ impl := some i, slot := .send, handler := y, ec := .success, size := (w.impls i).bytesSent }] := by
  unfold endWrite at h
  dsimp only at h
  split at h
  · next hstill =>
    simp only [Except.bind_ok_iff, Except.pure_ok_iff] at h
    obtain ⟨w₁, hpost, rfl⟩ := h
    obtain ⟨y, hy, rfl⟩ := postOp_ok hpost
    exact .inr ⟨hstill, y, by simpa using hy, by simp [setImpl, post]⟩
  · cases h
    exact .inl rfl

/-- libutp has accepted all there is to write on `i`, `n` bytes of it with those accepted before. -/
def TakesAll (w : World) (i : Nat) (bufs : List (List UInt8)) (rs : List WriteReply) (n : Nat) : Prop :=
  acceptedBytes (writeCalls bufs rs).1 = bufs.flatten ∧
    n = (w.impls i).bytesSent + acceptedCount (writeCalls bufs rs).1

/-- What `do_write` posts: it refuses a socket without `utp_socket`; otherwise the write may be completed, and its
sends may close sockets, the one that writes included. -/
theorem doWrite_posts {w w' : World} {i : Nat} {x : Handler} {rs : List WriteReply}
    (hE : Blamed E w (rs.flatMap WriteReply.sends)) (h : w.doWrite i x rs = .ok w') :
    ((w.impls i).utpSocket = none ∧
        w'.posted = w.posted ++ [{ impl := some i, slot := .send, handler := x, ec := .badDescriptor }]) ∨
      ∃ u cs, (w.impls i).utpSocket = some u ∧ w'.posted = w.posted ++ cs ∧ ∀ c ∈ cs, (w.writing i x).Dropped E c ∨
        ∃ n, w.TakesAll i (w.impls i).txBuffers rs n ∧
          c = { impl := some i, slot := .send, handler := { x with after := true }, ec := .success, size := n } := by
  have hidle : (w.impls i).handlers .send = none := by
    unfold doWrite at h
    simp only [Except.bind_ok_iff, Except.require_ok_iff] at h
    exact h.choose_spec.1
  cases hu : (w.impls i).utpSocket with
  | none =>
    rw [doWrite_detached hidle hu] at h
    cases h
    exact .inl ⟨rfl, rfl⟩
  | some u =>
    obtain ⟨w₁, hsetup⟩ := setupOp_ok w i .send x
    rw [doWrite_eq hidle hu hsetup, Except.bind_ok_iff] at h
    obtain ⟨w₂, hcalls, hend⟩ := h
    -- `setup_op` fills the slot and posts nothing.
    simp only [setupOp, Except.bind_ok_iff, Except.pure_ok_iff] at hsetup
    obtain ⟨ctx, hctx, rfl⟩ := hsetup
    set w₁ := ({ w with ctx := ctx } : World).setImpl i ((w.impls i).setHandler .send (some { x with after := true }))
      with hw₁
    have himpl : ∀ j, (w₁.impls j).closed = (w.impls j).closed ∧ (w₁.impls j).utpSocket = (w.impls j).utpSocket ∧
        (w₁.impls j).gotEof = (w.impls j).gotEof := fun j =>
      ⟨update_field SocketImpl.closed (by rfl) j, update_field SocketImpl.utpSocket (by rfl) j,
        update_field SocketImpl.gotEof (by rfl) j⟩
    have hblamed : Blamed E w₁ (rs.flatMap WriteReply.sends) :=
      hE.mono (Context.increment_alive hctx).1 fun hw => hw.same rfl (fun _ => rfl) himpl
    obtain ⟨rest, hrest⟩ := writeCalls_sends (w.impls i).txBuffers rs
    have hdrops : Drops E w₁ w₂ := by
      refine writeCalls_drops (fun ha ec hec => hblamed ha ec ?_) hcalls
      rw [hrest, List.find?_append, hec]
      rfl
    obtain ⟨cs, hcs, hall⟩ := hdrops.posted
    right
    rcases endWrite_posts hend with hend | ⟨hstill, y, hy, hend⟩
    · exact ⟨u, cs, rfl, hend.trans hcs, fun c hc => .inl (hall c hc)⟩
    · have hy := hdrops.slots i .send y hy
      simp only [hw₁, setImpl_impls, Function.update_self, setHandler_handlers, Option.some.injEq] at hy
      subst hy
      obtain ⟨hcut, hdone⟩ := writeCalls_spec (w.impls i).txBuffers rs
      rw [hdone.1 hstill, List.append_nil] at hcut
      have hcount : (w₂.impls i).bytesSent =
          (w.impls i).bytesSent + acceptedCount (writeCalls (w.impls i).txBuffers rs).1 := by
        rw [writeCalls_count hcalls, hw₁, setImpl_impls, Function.update_self]
        rfl
      refine ⟨u, cs ++ [_], rfl, by rw [hend, hcs, List.append_assoc]; rfl, fun c hc => ?_⟩
      exact (List.mem_append.1 hc).imp (hall c) fun hc => ⟨_, ⟨hcut, hcount⟩, List.mem_singleton.1 hc⟩

/-! ## Reading -/

/-- What `do_read` posts: it refuses a closed socket, has nothing to do for empty buffers, closes the socket at the
end of its stream, and takes what is queued. -/
theorem doRead_posts {w w' : World} {i : Nat} {x : Handler} (h : w.doRead i x = .ok w') :
    ∃ cs, w'.posted = w.posted ++ cs ∧ ∀ c ∈ cs,
      (w.impls i).closed = true ∧ c = { impl := some i, slot := .recv, handler := x, ec := .badDescriptor } ∨
      (w.impls i).closed = false ∧
        ((w.impls i).rxBuffers.flatten = [] ∧ c = { impl := some i, slot := .recv, handler := x, ec := .success } ∨
        (w.impls i).gotEof = true ∧ (w.impls i).rxBufferQueue = [] ∧
          (∃ slot y, c = { impl := some i, slot, handler := y, ec := .connectionReset } ∧
            ((w.impls i).handlers slot = some y ∨ y = { x with after := true })) ∨
        (w.impls i).rxBufferQueue ≠ [] ∧
          ∃ n, n = Scatter.copied (w.impls i).rxBuffers (unread (w.impls i).rxBufferQueue) ∧
          c = { impl := some i, slot := .recv, handler := { x with after := true }, ec := .success, size := n,
                data := (unread (w.impls i).rxBufferQueue).take n }) := by
  unfold doRead at h
  simp only [Except.bind_ok_iff, Except.require_ok_iff] at h
  obtain ⟨-, -, h⟩ := h
  split at h
  · next hc =>
    cases h
    exact ⟨[_], rfl, fun c hmem => .inl ⟨hc, List.mem_singleton.1 hmem⟩⟩
  next hopen =>
  have hopen : (w.impls i).closed = false := by simpa using hopen
  split at h
  · next hlen =>
    cases h
    exact ⟨[_], rfl, fun c hmem => .inr ⟨hopen, .inl ⟨List.length_eq_zero_iff.1 hlen, List.mem_singleton.1 hmem⟩⟩⟩
  simp only [Except.bind_ok_iff] at h
  obtain ⟨w₁, hsetup, h⟩ := h
  simp only [setupOp, Except.bind_ok_iff, Except.pure_ok_iff] at hsetup
  obtain ⟨ctx, -, rfl⟩ := hsetup
  split at h
  · next hqueue =>
    split at h
    · next heof =>
      obtain ⟨heq, -⟩ := closeWithError_simple .connectionReset
        (w := ({ w with ctx := ctx } : World).setImpl i ((w.impls i).setHandler .recv (some { x with after := true })))
        (i := i) (by simpa [SocketImpl.setHandler] using hopen) (.inr (by simpa [SocketImpl.setHandler] using heof))
      rw [heq, shut_eq] at h
      cases h
      refine ⟨_, rfl, fun c hc => .inr ⟨hopen, .inr (.inl ⟨heof, hqueue, ?_⟩)⟩⟩
      obtain ⟨slot, y, rfl, hy⟩ := mem_closings.1 hc
      refine ⟨slot, y, rfl, ?_⟩
      rw [setImpl_impls, Function.update_self, setHandler_handlers] at hy
      by_cases hslot : slot = .recv
      · subst hslot
        rw [Function.update_self, Option.some.injEq] at hy
        exact .inr hy.symm
      · rw [Function.update_of_ne hslot] at hy
        exact .inl hy
    · cases h
      exact ⟨[], (List.append_nil _).symm, by simp⟩
  · next hqueue =>
    simp only [Except.bind_ok_iff] at h
    obtain ⟨queue, -, h⟩ := h
    obtain ⟨y, hy, rfl⟩ := postOp_ok h
    simp only [setImpl_impls, Function.update_self, setHandler_handlers, Option.some.injEq] at hy
    subst hy
    refine ⟨[_], rfl, fun c hc => .inr ⟨hopen, .inr (.inr ⟨hqueue, _, rfl, ?_⟩)⟩⟩
    rw [List.mem_singleton.1 hc, Scatter.take_copy]
    congr 1
    rw [List.take_eq_take_iff, Scatter.copied]
    omega

/-- What `on_receive` posts: the read that waits takes the front of the chunk, unless the sends of
`utp_read_drained` have closed the socket. -/
theorem onReceive_posts {w w' : World} {i : Nat} {buf : List UInt8} {ecs : List ErrorCode} (hread : Waits i w)
    (hE : Blamed E w ecs) (h : w.onReceive i buf ecs = .ok w') :
    ∃ cs, w'.posted = w.posted ++ cs ∧ ∀ c ∈ cs, w.Dropped E c ∨
      ∃ x n, (w.impls i).handlers .recv = some x ∧ n = (fillBuffers (w.impls i).rxBuffers buf).2.1 ∧
        c = { impl := some i, slot := .recv, handler := x, ec := .success, size := n, data := buf.take n } := by
  unfold onReceive at h
  dsimp only at h
  split at h
  · cases h
    exact ⟨[], (List.append_nil _).symm, by simp⟩
  next x hx =>
  obtain ⟨hqueue, hbufs⟩ := hread (by rw [Pending, hx]; simp)
  obtain ⟨hle, hcut⟩ := fill_spec buf hqueue hbufs
  simp only [Except.bind_ok_iff] at h
  obtain ⟨-, -, w₁, hdrained, hpost⟩ := h
  have hfill : Drops E w (w.setImpl i (fill (w.impls i) buf)) := by
    have himpl : ∀ {α : Type} (f : SocketImpl → α), f (fill (w.impls i) buf) = f (w.impls i) →
        ∀ j, f ((w.setImpl i (fill (w.impls i) buf)).impls j) = f (w.impls j) := fun f hf => update_field f hf
    refine ⟨rfl, fun j hj => by rwa [himpl SocketImpl.closed rfl] at hj, fun j slot y hy => ?_,
      ⟨[], (List.append_nil _).symm, by simp⟩, fun hc => hc.same rfl (fun _ => rfl) fun j =>
        ⟨himpl SocketImpl.closed rfl j, himpl SocketImpl.utpSocket rfl j, himpl SocketImpl.gotEof rfl j⟩⟩
    rwa [himpl SocketImpl.handlers rfl] at hy
  have hdrops : Drops E w w₁ := by
    unfold drainedIf utpReadDrained at hdrained
    split at hdrained
    · split at hdrained
      · cases hdrained
      · simp only [Except.bind_ok_iff] at hdrained
        obtain ⟨-, -, hsends⟩ := hdrained
        exact hfill.trans (sends_drops (hE.mono rfl hfill.covers) hsends)
    · cases hdrained
      exact hfill
  obtain ⟨cs, hcs, hall⟩ := hdrops.posted
  obtain ⟨y, hy, rfl⟩ := postOp_ok hpost
  refine ⟨cs ++ [_], by rw [← List.append_assoc, ← hcs]; rfl, fun c hc => ?_⟩
  refine (List.mem_append.1 hc).imp (hall c) fun hc => ?_
  set n := (fillBuffers (w.impls i).rxBuffers buf).2.1 with hn
  have hlen : ((fill (w.impls i) buf).rxBuffers.flatten.take n).length = n := List.length_take_of_le hle
  refine ⟨y, n, hdrops.slots i .recv y hy, hn, ?_⟩
  have hdata : (fill (w.impls i) buf).rxBuffers.flatten.take n = buf.take n := by
    conv_rhs => rw [← hcut]
    rw [List.take_left' hlen]
  rw [List.mem_singleton.1 hc, hdata]

/-! ## The causes -/

/-- The socket and the slot of an operation the event starts. -/
def Event.starts : Event → Option (Nat × Slot)
  | .asyncConnect v _ _ _ => some (v, .connect)
  | .asyncAccept v => some (v, .accept)
  | .asyncReadSome v _ => some (v, .recv)
  | .asyncWriteSome v _ _ => some (v, .send)
  | _ => none

/-- Pending on `j`, or the operation that is just being started. -/
def Held (w : World) (j : Nat) (slot : Slot) (x : Handler) : Prop :=
  (w.impls j).handlers slot = some x ∨ x = { w.nextHandler with after := true }

/-- A send of the event fails; and `e` is the error of the first that does, or of one made inside the `utp_close` of a
socket that is open, or that the event connects. -/
def Failed (w : World) (ev : Event) (e : ErrorCode) : Prop :=
  w.ctx.alive = true ∧ ∃ ec, (w.eventSends ev).find? fatal = some ec ∧
    (w.CausedBy ec e ∨ fatal e = true ∧ ∃ v ep ecs onClose, ev = .asyncConnect v ep ecs onClose ∧ e ∈ onClose)

/-- Why the event posts the completion. -/
inductive Cause (w : World) : Event → Completion → Prop
  /-- The call finds no `_socket_impl`. -/
  | unbound {ev : Event} {v : Nat} {slot : Slot} : ev.starts = some (v, slot) → (w.sockets v).impl = none →
      Cause w ev { impl := none, slot, handler := w.nextHandler, ec := .badDescriptor }
  /-- A write finds no `utp_socket`. -/
  | unattached {v i : Nat} {bufs : List (List UInt8)} {rs : List WriteReply} : (w.sockets v).impl = some i →
      (w.impls i).utpSocket = none → Cause w (.asyncWriteSome v bufs rs)
        { impl := some i, slot := .send, handler := w.nextHandler, ec := .badDescriptor }
  /-- A read finds its socket closed, or has no room for anything. -/
  | closedRead {v i : Nat} {bufs : List (List UInt8)} : (w.sockets v).impl = some i → (w.impls i).closed = true →
      Cause w (.asyncReadSome v bufs)
        { impl := some i, slot := .recv, handler := w.nextHandler, ec := .badDescriptor }
  | emptyRead {v i : Nat} {bufs : List (List UInt8)} : (w.sockets v).impl = some i → (w.impls i).closed = false →
      bufs.flatten = [] → Cause w (.asyncReadSome v bufs)
        { impl := some i, slot := .recv, handler := w.nextHandler, ec := .success }
  /-- A read takes what is queued; a chunk arrives for a read that waits. -/
  | read {v i n : Nat} {bufs : List (List UInt8)} : (w.sockets v).impl = some i → (w.impls i).closed = false →
      (w.impls i).rxBufferQueue ≠ [] → n = Scatter.copied bufs (unread (w.impls i).rxBufferQueue) →
      Cause w (.asyncReadSome v bufs)
        { impl := some i, slot := .recv, handler := { w.nextHandler with after := true }, ec := .success, size := n,
          data := (unread (w.impls i).rxBufferQueue).take n }
  | received {u i n : Nat} {x : Handler} {buf : List UInt8} {ecs : List ErrorCode} : (w.utp u).userdata = some i →
      (w.impls i).handlers .recv = some x → n = (fillBuffers (w.impls i).rxBuffers buf).2.1 →
      Cause w (.onRead u buf ecs)
        { impl := some i, slot := .recv, handler := x, ec := .success, size := n, data := buf.take n }
  | connected {u i : Nat} {x : Handler} {rs : List WriteReply} : (w.utp u).userdata = some i →
      (w.impls i).handlers .connect = some x → Cause w (.stateChange u .connect rs)
        { impl := some i, slot := .connect, handler := x, ec := .success }
  | accepted {i : Nat} {rest : List Nat} {x : Handler} {ep : Endpoint} {ecs onClose : List ErrorCode} :
      w.acceptingSockets = i :: rest → (w.impls i).handlers .accept = some x → Cause w (.incoming ep ecs onClose)
        { impl := some i, slot := .accept, handler := x, ec := .success }
  /-- libutp has taken all of a write, at once or when it is writable again. -/
  | written {v i u n : Nat} {bufs : List (List UInt8)} {rs : List WriteReply} : (w.sockets v).impl = some i →
      (w.impls i).utpSocket = some u → w.TakesAll i bufs rs n → Cause w (.asyncWriteSome v bufs rs)
        { impl := some i, slot := .send, handler := { w.nextHandler with after := true }, ec := .success, size := n }
  | resumed {u i n : Nat} {x : Handler} {rs : List WriteReply} : (w.utp u).userdata = some i →
      (w.impls i).handlers .send = some x → w.TakesAll i (w.impls i).txBuffers rs n →
      Cause w (.stateChange u .writable rs)
        { impl := some i, slot := .send, handler := x, ec := .success, size := n }
  /-- The end of the stream is reported to a read that waits, or found by one. -/
  | eof {u i : Nat} {x : Handler} {rs : List WriteReply} : (w.utp u).userdata = some i →
      (w.impls i).handlers .recv = some x → Cause w (.stateChange u .eof rs)
        { impl := some i, slot := .recv, handler := x, ec := .connectionReset }
  | ended {v i : Nat} {slot : Slot} {x : Handler} {bufs : List (List UInt8)} : (w.sockets v).impl = some i →
      (w.impls i).closed = false → (w.impls i).gotEof = true → (w.impls i).rxBufferQueue = [] → w.Held i slot x →
      Cause w (.asyncReadSome v bufs) { impl := some i, slot, handler := x, ec := .connectionReset }
  /-- The user closes the socket, or assigns to it. -/
  | aborted {ev : Event} {v i : Nat} {slot : Slot} {x : Handler} : (ev = .close v ∨ ∃ v', ev = .moveAssign v v') →
      (w.sockets v).impl = some i → (w.impls i).closed = false → (w.impls i).handlers slot = some x →
      Cause w ev { impl := some i, slot, handler := x, ec := .operationAborted }
  | destroyed {u i : Nat} {slot : Slot} {x : Handler} {rs : List WriteReply} : (w.utp u).userdata = some i →
      (w.impls i).handlers slot = some x → Cause w (.stateChange u .destroying rs)
        { impl := some i, slot, handler := x, ec := .connectionAborted }
  /-- A send fails, and every socket is closed for it. -/
  | failed {ev : Event} {j : Nat} {slot : Slot} {x : Handler} {e : ErrorCode} : j ∈ w.registeredSockets →
      (w.impls j).closed = false → w.Held j slot x → w.Failed ev e →
      Cause w ev { impl := some j, slot, handler := x, ec := e }

/-- What the event posts has causes. -/
def Posts (w : World) (ev : Event) (w' : World) : Prop :=
  ∃ cs, w'.posted = w.posted ++ cs ∧ ∀ c ∈ cs, Cause w ev c

theorem Posts.nothing {w w' : World} (ev : Event) (h : w'.posted = w.posted) : Posts w ev w' :=
  ⟨[], by rw [h, List.append_nil], by simp⟩

theorem Posts.one {w w' : World} {ev : Event} {c : Completion} (h : w'.posted = w.posted ++ [c]) (hc : Cause w ev c) :
    Posts w ev w' :=
  ⟨[c], h, fun _ hmem => List.mem_singleton.1 hmem ▸ hc⟩

theorem blamed_failed (w : World) (ev : Event) : Blamed (w.Failed ev) w (w.eventSends ev) := fun halive ec hec =>
  ⟨⟨halive, ec, hec, .inl (.inl rfl)⟩, fun j u e hj hopen hu he hf =>
    ⟨halive, ec, hec, .inl (covers_causedBy w ec j u e hj hopen hu he hf)⟩⟩

theorem Dropped.cause {w : World} {ev : Event} {c : Completion} (h : w.Dropped (w.Failed ev) c) : Cause w ev c := by
  obtain ⟨j, slot, x, e, rfl, hj, hopen, hx, he⟩ := h
  exact .failed hj hopen (.inl hx) he

/-- The same, where an operation has taken its slot by then. -/
theorem Dropped.cause_started {w w₁ : World} {ev : Event} {i : Nat} {s : SocketImpl} {slot : Slot} {c : Completion}
    (h : w₁.Dropped (w.Failed ev) c) (hreg : w₁.registeredSockets = w.registeredSockets)
    (himpl : w₁.impls = Function.update w.impls i s) (hclosed : s.closed = (w.impls i).closed)
    (hs : s.handlers = Function.update (w.impls i).handlers slot (some { w.nextHandler with after := true })) :
    Cause w ev c := by
  obtain ⟨j, slot', x, e, rfl, hj, hopen, hx, he⟩ := h
  rw [himpl] at hopen hx
  refine .failed (hreg ▸ hj) (by rwa [update_field SocketImpl.closed hclosed] at hopen) ?_ he
  by_cases hji : j = i
  · subst hji
    rw [Function.update_self, hs] at hx
    by_cases hslot : slot' = slot
    · subst hslot
      rw [Function.update_self, Option.some.injEq] at hx
      exact .inr hx.symm
    · rw [Function.update_of_ne hslot] at hx
      exact .inl hx
  · rw [Function.update_of_ne hji] at hx
    exact .inl hx

/-! ## The events -/

theorem close_posts {w w' : World} {v : Nat} {ev : Event} (hev : ev = .close v ∨ ∃ v', ev = .moveAssign v v')
    (h : w.close v = .ok w') : Posts w ev w' := by
  unfold close at h
  split at h
  · cases h
    exact .nothing _ rfl
  next i hi =>
  split at h
  · cases h
    exact .nothing _ rfl
  next hc =>
  have hopen : (w.impls i).closed = false := by simpa using hc
  simp only [Except.bind_ok_iff, Except.pure_ok_iff] at h
  obtain ⟨w₁, hclose, rfl⟩ := h
  have hsends : ∀ u, (w.impls i).utpSocket = some u → (w.impls i).gotEof = false →
      w.eventSends ev = (w.utp u).onClose := fun u hu heof => by
    rcases hev with rfl | ⟨v', rfl⟩ <;> simp [eventSends, hi, hopen, heof, hu]
  obtain ⟨cs, hcs, hall⟩ := closeWithError_posts (E := w.Failed ev) hopen
    (fun u hu heof => hsends u hu heof ▸ blamed_failed w ev) hclose
  refine ⟨cs, hcs, fun c hc => (hall c hc).elim (fun hmem => ?_) Dropped.cause⟩
  obtain ⟨slot, x, rfl, hx⟩ := mem_closings.1 hmem
  exact .aborted hev hi hopen hx

/-- The world in which the sends of `utp_connect` are made. -/
def connecting (w : World) (c : Context) (i : Nat) (ep : Endpoint) (x : Handler) (onClose : List ErrorCode) : World :=
  (({ w with ctx := c, created := w.created + 1 } : World).setUtp w.created
    { alive := true, userdata := some i, peer := ep, onClose }).setImpl i
      { (w.impls i).setHandler .connect (some { x with after := true }) with utpSocket := some w.created }

theorem doConnect_ok {w w' : World} {i : Nat} {ep : Endpoint} {x : Handler} {ecs onClose : List ErrorCode}
    (h : w.doConnect i ep x ecs onClose = .ok w') :
    (w.impls i).utpSocket = none ∧
      ∃ c, w.ctx.incrementOutstandingOps = .ok c ∧ (w.connecting c i ep x onClose).sends ecs = .ok w' := by
  simp only [doConnect, setupOp, utpSetUserdata_new, Except.bind_ok_iff, Except.require_ok_iff, Except.pure_ok_iff] at h
  obtain ⟨-, hnone, w₁, ⟨c, hc, rfl⟩, -, -, w₂, heq, h⟩ := h
  cases heq
  refine ⟨hnone, c, hc, ?_⟩
  simpa [connecting, setImpl, setUtp] using h

theorem asyncConnect_posts {w w' : World} {v : Nat} {ep : Endpoint} {ecs onClose : List ErrorCode}
    (h : w.asyncConnect v ep ecs onClose = .ok w') : Posts w (.asyncConnect v ep ecs onClose) w' := by
  simp only [asyncConnect] at h
  split at h
  · next hnone =>
    cases h
    exact .one rfl (.unbound rfl hnone)
  next i hi =>
  obtain ⟨-, c, hinc, hsends⟩ := doConnect_ok h
  have hdrops : Drops (w.Failed (.asyncConnect v ep ecs onClose)) (w.numberOp.connecting c i
      { ep with address := connectAddress ep.address } w.nextHandler onClose) w' := by
    refine sends_drops (fun ha ec hec => ?_) hsends
    have halive : w.ctx.alive = true := (Context.increment_alive hinc).1 ▸ ha
    refine ⟨⟨halive, ec, hec, .inl (.inl rfl)⟩, fun j u e hj hopen hu he hf => ⟨halive, ec, hec, ?_⟩⟩
    by_cases hnew : u = w.created
    · subst hnew
      simp only [connecting, numberOp, setImpl, setUtp, Function.update_self] at he
      exact .inr ⟨hf, v, ep, ecs, onClose, rfl, he⟩
    · simp only [connecting, numberOp, setImpl, setUtp, Function.update_of_ne hnew] at he
      have hji : j ≠ i := by
        rintro rfl
        simp [connecting, numberOp, closesOn, Ne.symm hnew] at hu
      simp only [closesOn, connecting, numberOp, setImpl, setUtp, Function.update_of_ne hji] at hopen hu
      exact .inl (covers_causedBy w ec j u e hj hopen hu he hf)
  obtain ⟨cs, hcs, hall⟩ := hdrops.posted
  exact ⟨cs, hcs, fun c hc => (hall c hc).cause_started rfl rfl rfl rfl⟩

theorem asyncAccept_posts {w w' : World} {v : Nat} (h : w.asyncAccept v = .ok w') : Posts w (.asyncAccept v) w' := by
  simp only [asyncAccept] at h
  split at h
  · next hnone =>
    cases h
    exact .one rfl (.unbound rfl hnone)
  · simp only [doAccept, addAcceptingSocket, setupOp, Except.bind_ok_iff, Except.pure_ok_iff] at h
    obtain ⟨-, -, w₁, ⟨-, -, rfl⟩, c, -, rfl⟩ := h
    exact .nothing _ rfl

theorem asyncWriteSome_posts {w w' : World} {v : Nat} {bufs : List (List UInt8)} {rs : List WriteReply}
    (h : w.asyncWriteSome v bufs rs = .ok w') : Posts w (.asyncWriteSome v bufs rs) w' := by
  simp only [asyncWriteSome] at h
  split at h
  · next hnone =>
    cases h
    exact .one rfl (.unbound rfl hnone)
  next i hi =>
  set w₁ := w.numberOp.setImpl i { w.impls i with txBuffers := bufs } with hw₁
  have hblamed : Blamed (w.Failed (.asyncWriteSome v bufs rs)) w₁ (rs.flatMap WriteReply.sends) :=
    (blamed_failed w (.asyncWriteSome v bufs rs)).mono rfl fun hw => hw.same rfl (fun _ => rfl) fun j =>
      ⟨update_field SocketImpl.closed (by rfl) j, update_field SocketImpl.utpSocket (by rfl) j,
        update_field SocketImpl.gotEof (by rfl) j⟩
  rcases doWrite_posts hblamed h with ⟨hnone, hposted⟩ | ⟨u, cs, hu, hcs, hall⟩
  · exact .one hposted (.unattached hi (by simpa [hw₁] using hnone))
  · refine ⟨cs, hcs, fun c hc => ?_⟩
    rcases hall c hc with hdrop | ⟨n, hn, rfl⟩
    · have himpl : (w₁.writing i w.nextHandler).impls = Function.update w.impls i
          ({ w.impls i with txBuffers := bufs }.setHandler .send (some { w.nextHandler with after := true })) := by
        simp only [writing, hw₁, setImpl, numberOp, Function.update_idem, Function.update_self]
      exact hdrop.cause_started rfl himpl rfl rfl
    · exact .written hi (by simpa [hw₁] using hu) (by simpa [TakesAll, hw₁] using hn)

theorem asyncReadSome_posts {w w' : World} {v : Nat} {bufs : List (List UInt8)}
    (h : w.asyncReadSome v bufs = .ok w') : Posts w (.asyncReadSome v bufs) w' := by
  simp only [asyncReadSome] at h
  split at h
  · next hnone =>
    cases h
    exact .one rfl (.unbound rfl hnone)
  next i hi =>
  obtain ⟨cs, hcs, hall⟩ := doRead_posts h
  simp only [setImpl_impls, Function.update_self] at hall
  refine ⟨cs, hcs, fun c hc => ?_⟩
  rcases hall c hc with ⟨hclosed, rfl⟩ |
    ⟨hopen, ⟨hnil, rfl⟩ | ⟨heof, hqueue, slot, x, rfl, hx⟩ | ⟨hqueue, n, hn, rfl⟩⟩
  · exact .closedRead hi hclosed
  · exact .emptyRead hi hopen hnil
  · exact .ended hi hopen heof hqueue hx
  · exact .read hi hopen hqueue hn

theorem callbackSendto_posts {w w' : World} {ec : ErrorCode} (h : w.callbackSendto ec = .ok w') :
    Posts w (.sendto ec) w' := by
  have h : w.sends [ec] = .ok w' := by
    rw [sends, List.foldlM_cons, h]
    rfl
  obtain ⟨cs, hcs, hall⟩ := (sends_drops (blamed_failed w (.sendto ec)) h).posted
  exact ⟨cs, hcs, fun c hc => (hall c hc).cause⟩

theorem onWritable_posts {w w' : World} {u i : Nat} {rs : List WriteReply} (hw : Regular w)
    (hu : (w.utp u).userdata = some i) (hatt : (w.impls i).utpSocket = some u) (h : w.onWritable i rs = .ok w') :
    Posts w (.stateChange u .writable rs) w' := by
  unfold onWritable at h
  split at h
  · cases h
    exact .nothing _ rfl
  next x hx =>
  have hafter : ({ x with after := true } : Handler) = x := by rw [← hw.placed.after i .send x hx]
  set w₁ := w.setImpl i ((w.impls i).setHandler .send none) with hw₁
  have hblamed : Blamed (w.Failed (.stateChange u .writable rs)) w₁ (rs.flatMap WriteReply.sends) :=
    (blamed_failed w (.stateChange u .writable rs)).mono rfl fun hw => hw.same rfl (fun _ => rfl) fun j =>
      ⟨update_field SocketImpl.closed (by rfl) j, update_field SocketImpl.utpSocket (by rfl) j,
        update_field SocketImpl.gotEof (by rfl) j⟩
  rcases doWrite_posts hblamed h with ⟨hnone, -⟩ | ⟨u', cs, -, hcs, hall⟩
  · simp [hw₁, SocketImpl.setHandler, hatt] at hnone
  · refine ⟨cs, hcs, fun c hc => ?_⟩
    rw [hafter] at hall
    rcases hall c hc with hdrop | ⟨n, hn, rfl⟩
    · -- With the handler back in its slot, the socket is as it was.
      have hback : (w₁.writing i x).impls = w.impls := by
        simp only [writing, hw₁, setImpl, SocketImpl.setHandler, Function.update_idem, Function.update_self, hafter]
        rw [← hx, Function.update_eq_self, Function.update_eq_self]
      obtain ⟨j, slot, y, e, rfl, hj, hopen, hy, he⟩ := hdrop
      rw [hback] at hopen hy
      exact .failed hj hopen (.inl hy) he
    · exact .resumed hu hx (by simpa [TakesAll, hw₁, SocketImpl.setHandler] using hn)

theorem onDestroy_posts {w w' : World} {u i : Nat} {rs : List WriteReply} (hu : (w.utp u).userdata = some i)
    (h : w.onDestroy i = .ok w') : Posts w (.stateChange u .destroying rs) w' := by
  unfold onDestroy at h
  simp only [Except.bind_ok_iff] at h
  obtain ⟨-, -, w₁, hclose, h⟩ := h
  have hposted : w'.posted = w₁.posted := by
    split at h <;> cases h <;> rfl
  rcases destroy_closes (w := w) (i := i) with ⟨f, heq, -⟩ | ⟨-, heq⟩ <;> rw [heq] at hclose <;> cases hclose
  refine ⟨_, hposted, fun c hc => ?_⟩
  obtain ⟨slot, x, rfl, hx⟩ := mem_closings.1 hc
  exact .destroyed hu hx

theorem stateChange_posts {w w' : World} {u : Nat} {state : StateChange} {rs : List WriteReply} (hw : Regular w)
    (halive : (w.utp u).alive = true) (h : w.stateChange u state rs = .ok w') :
    Posts w (.stateChange u state rs) w' := by
  simp only [stateChange, callbackOnStateChange, Except.bind_ok_iff, Except.pure_ok_iff] at h
  obtain ⟨w₁, h, rfl⟩ := h
  suffices hposts : Posts w (.stateChange u state rs) w₁ by
    obtain ⟨cs, hcs, hall⟩ := hposts
    exact ⟨cs, by rw [← hcs]; split <;> rfl, hall⟩
  split at h
  · cases h
    exact .nothing _ rfl
  next i hi =>
  cases state with
  | connect =>
    obtain ⟨x, hx, rfl⟩ := postOp_ok h
    exact .one rfl (.connected hi hx)
  | writable => exact onWritable_posts hw hi (hw.sound.handles.back u i halive hi) h
  | eof =>
    simp only [onEof, Except.bind_ok_iff, Except.pure_ok_iff] at h
    obtain ⟨-, -, rfl⟩ := h
    unfold postIfSet
    split
    · exact .nothing _ rfl
    · next x hx => exact .one rfl (.eof hi (by simpa using hx))
  | destroying => exact onDestroy_posts hi h

theorem Closes.accepting {w w' : World} (h : Closes w w') : w'.acceptingSockets = w.acceptingSockets := by
  obtain ⟨l, hl, h⟩ := h
  cases h with
  | @shut i ec _ _ _ =>
    obtain ⟨utp, heq, -⟩ := shutUtp_eq w i ec
    rw [heq]
  | finish _ hf =>
    obtain ⟨-, c, -, rfl⟩ := finishClose_ok_iff.1 hf
    rfl
  | _ => exact hl.elim

/-- The world in which libutp answers a connection that arrives. -/
def arriving (w : World) (ep : Endpoint) (onClose : List ErrorCode) : World :=
  ({ w with created := w.created + 1 } : World).setUtp w.created { alive := true, peer := ep, onClose }

/-- The new `utp_socket` is handed to `i`, whose accept is `x`. -/
def accepting (w : World) (i u : Nat) (rest : List Nat) (x : Handler) : World :=
  ((({ w with acceptingSockets := rest } : World).setUtp u { w.utp u with userdata := some i }).setImpl i
    { (w.impls i).setHandler .accept none with utpSocket := some u }).post
      { impl := some i, slot := .accept, handler := x, ec := .success }

theorem incoming_ok {w w' : World} {ep : Endpoint} {ecs onClose : List ErrorCode}
    (h : w.incoming ep ecs onClose = .ok w') :
    w.acceptingSockets = [] ∧ w' = w ∨
      ∃ w₁, (w.arriving ep onClose).sends ecs = .ok w₁ ∧ (w' = w₁ ∨
        ∃ i rest x, w₁.acceptingSockets = i :: rest ∧ (w₁.impls i).utpSocket = none ∧
          (w₁.impls i).handlers .accept = some x ∧ w' = w₁.accepting i w.created rest x) := by
  unfold incoming callbackOnFirewall at h
  split at h
  · next hnone =>
    cases h
    exact .inl ⟨List.isEmpty_iff.1 hnone, rfl⟩
  simp only [Except.bind_ok_iff] at h
  obtain ⟨w₁, hsends, h⟩ := h
  refine .inr ⟨w₁, hsends, ?_⟩
  unfold callbackOnAccept at h
  split at h
  · cases h
    exact .inl rfl
  next i rest hi =>
  simp only [onAccept, utpSetUserdata, Except.bind_ok_iff, Except.require_ok_iff, Except.pure_ok_iff] at h
  obtain ⟨-, hnone, -, -, w₂, ⟨-, -, rfl⟩, hpost⟩ := h
  obtain ⟨x, hx, rfl⟩ := postOp_ok hpost
  refine .inr ⟨i, rest, x, hi, hnone, by simpa [setImpl, setUtp] using hx, ?_⟩
  simp [accepting, setImpl, setUtp, post, SocketImpl.setHandler]

theorem incoming_posts {w w' : World} {ep : Endpoint} {ecs onClose : List ErrorCode} (hw : Sound w)
    (h : w.incoming ep ecs onClose = .ok w') : Posts w (.incoming ep ecs onClose) w' := by
  rcases incoming_ok h with ⟨-, rfl⟩ | ⟨w₁, hsends, h⟩
  · exact .nothing _ rfl
  -- What libutp has just made is not attached yet.
  have hblamed : Blamed (w.Failed (.incoming ep ecs onClose)) (w.arriving ep onClose) ecs := by
    refine (blamed_failed w (.incoming ep ecs onClose)).mono rfl fun hcovers j u e hj hopen hu he hf => ?_
    have hatt : (w.impls j).utpSocket = some u := by
      simp only [closesOn, Bool.and_eq_true, beq_iff_eq] at hu
      exact hu.2
    have hold : u ≠ w.created := by
      have := (hw.handles.attached j u hatt).1
      omega
    simp only [arriving, setUtp_utp, Function.update_of_ne hold] at he
    exact hcovers j u e hj hopen hu he hf
  have hdrops := sends_drops hblamed hsends
  obtain ⟨cs, hcs, hall⟩ := hdrops.posted
  have hcause : ∀ c ∈ cs, Cause w (.incoming ep ecs onClose) c := fun c hc => Dropped.cause (hall c hc)
  rcases h with rfl | ⟨i, rest, x, hi, -, hx, rfl⟩
  · exact ⟨cs, hcs, hcause⟩
  have hacc : w₁.acceptingSockets = w.acceptingSockets := by
    have htr := sends_closes (w.arriving ep onClose) ecs
    rw [hsends] at htr
    exact htr.keeps (fun s => s.acceptingSockets = w.acceptingSockets) (fun s s' hs hm => hm.accepting.trans hs) rfl
  refine ⟨cs ++ [_], by rw [← List.append_assoc]; exact congrArg (· ++ [_]) hcs, fun c hc => ?_⟩
  rcases List.mem_append.1 hc with hc | hc
  · exact hcause c hc
  · rw [List.mem_singleton.1 hc]
    exact .accepted (hacc ▸ hi) (hdrops.slots i .accept x hx)

theorem bind_posted (w : World) (v : Nat) : (w.bind v).posted = w.posted := by
  unfold World.bind
  split <;> rfl

theorem moveConstruct_posted (w : World) (v : Nat) : (w.moveConstruct v).posted = w.posted := by
  unfold moveConstruct
  dsimp only
  split <;> rfl

theorem ran_posted (w : World) : w.ran.posted = w.posted := by
  unfold World.ran
  split
  · rfl
  · dsimp only
    split <;> rfl

/-- What each event posts; running a completion takes it off the list. -/
theorem step_posts {w w' : World} {ev : Event} (hw : Regular w) (hr : Reading w) (hen : w.Enabled ev)
    (hs : w.step ev = .ok w') : (∃ c, ev = .run c ∧ w' = w.run c) ∨ Posts w ev w' := by
  cases ev with
  | run c =>
    cases hs
    exact .inl ⟨c, rfl, rfl⟩
  | socket =>
    cases hs
    exact .inr (.nothing _ rfl)
  | bind v =>
    cases hs
    exact .inr (.nothing _ (bind_posted w v))
  | moveConstruct v =>
    cases hs
    exact .inr (.nothing _ (moveConstruct_posted w v))
  | ran =>
    cases hs
    exact .inr (.nothing _ (ran_posted w))
  | moveAssign v v' =>
    simp only [step, moveAssign, Except.bind_ok_iff] at hs
    obtain ⟨w₁, hclose, hs⟩ := hs
    obtain ⟨cs, hcs, hall⟩ := close_posts (.inr ⟨v', rfl⟩) hclose
    split at hs
    · cases hs
    · cases hs
      exact .inr ⟨cs, hcs, hall⟩
  | close v => exact .inr (close_posts (.inl rfl) hs)
  | asyncConnect v ep ecs onClose => exact .inr (asyncConnect_posts hs)
  | asyncAccept v => exact .inr (asyncAccept_posts hs)
  | asyncWriteSome v bufs rs => exact .inr (asyncWriteSome_posts hs)
  | asyncReadSome v bufs => exact .inr (asyncReadSome_posts hs)
  | sendto ec => exact .inr (callbackSendto_posts hs)
  | stateChange u state rs => exact .inr (stateChange_posts hw hen.2 hs)
  | onRead u buf ecs =>
    simp only [step, callbackOnRead] at hs
    split at hs
    · cases hs
    next i hi =>
    obtain ⟨cs, hcs, hall⟩ := onReceive_posts (hr i) (blamed_failed w (.onRead u buf ecs)) hs
    refine .inr ⟨cs, hcs, fun c hc => ?_⟩
    rcases hall c hc with hdrop | ⟨x, n, hx, hn, rfl⟩
    · exact hdrop.cause
    · exact .received hi hx hn
  | incoming ep ecs onClose => exact .inr (incoming_posts hw.sound hs)
  | context ev =>
    simp only [step, Except.bind_ok_iff, Except.pure_ok_iff] at hs
    obtain ⟨c, -, rfl⟩ := hs
    exact .inr (.nothing _ rfl)

end World

end AsioUtp
