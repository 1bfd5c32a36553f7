/-
The bytes of one write, from the buffers to libutp.

`do_write` offers the buffers to `utp_write` piece by piece, and leaves them
advanced by what was accepted when libutp takes no more; `on_writable` goes on
from there. What the calls accept, then what they leave, is what they were
given (`writeCalls_spec`); and nothing else that happens to an open socket
touches its write (`spared_step`). From both follows what holds at every
moment of a write, however it is spread over callbacks (`write_fidelity`).
-/
import AsioUtp.Reentry

namespace AsioUtp

namespace World

open Machine

/-! ## What the calls accept -/

/-- The bytes the calls accept, in order. -/
def acceptedBytes (calls : List (List UInt8 × WriteReply)) : List UInt8 :=
  calls.flatMap fun c => c.1.take c.2.accepted

/-- What `_bytes_sent` grows by. -/
def acceptedCount (calls : List (List UInt8 × WriteReply)) : Nat := (calls.map (·.2.accepted)).sum

/-- libutp accepts no more than it is offered. -/
def Fit (calls : List (List UInt8 × WriteReply)) : Prop := ∀ c ∈ calls, c.2.accepted ≤ c.1.length

theorem acceptedBytes_append (calls calls' : List (List UInt8 × WriteReply)) :
    acceptedBytes (calls ++ calls') = acceptedBytes calls ++ acceptedBytes calls' := List.flatMap_append

theorem Fit.count {calls : List (List UInt8 × WriteReply)} (h : Fit calls) :
    acceptedCount calls = (acceptedBytes calls).length := by
  induction calls with
  | nil => rfl
  | cons c calls ih =>
    have hc : c.2.accepted ≤ c.1.length := h c (by simp)
    have hrest := ih fun c' hc' => h c' (by simp [hc'])
    simp only [acceptedCount, acceptedBytes, List.map_cons, List.sum_cons, List.flatMap_cons, List.length_append,
      List.length_take] at hrest ⊢
    omega

/-- The loop over one buffer: what is accepted is its front, and it goes on exactly when nothing is left. -/
theorem bufferCalls_spec {turns : Nat} (b : List UInt8) (rs : List WriteReply) (h : b.length < turns) :
    acceptedBytes (bufferCalls turns b rs).1 ++ (bufferCalls turns b rs).2.1 = b ∧
      ((bufferCalls turns b rs).2.2.2 = true ↔ (bufferCalls turns b rs).2.1 = []) := by
  induction turns generalizing b rs with
  | zero => cases h
  | succ turns ih =>
    rw [bufferCalls]
    by_cases hb : b = []
    · simp [hb, acceptedBytes]
    · rw [if_neg hb]
      dsimp only
      by_cases hr : (rs.headD {}).accepted < (b.drop (rs.headD {}).accepted).length
      · rw [if_pos hr]
        have hne : b.drop (rs.headD {}).accepted ≠ [] := List.ne_nil_of_length_pos (by omega)
        refine ⟨?_, by simpa using hne⟩
        simp [acceptedBytes]
      · rw [if_neg hr]
        obtain ⟨hcut, hdone⟩ := ih (b.drop (rs.headD {}).accepted) rs.tail (drop_lt_of_taken hb hr h)
        refine ⟨?_, hdone⟩
        simp only [acceptedBytes, List.flatMap_cons, List.append_assoc] at hcut ⊢
        rw [hcut, List.take_append_drop]

/-- The whole loop: what is accepted, then what is left, is what there was; and `still_writable` says that nothing
is left. -/
theorem writeCalls_spec (bs : List (List UInt8)) (rs : List WriteReply) :
    acceptedBytes (writeCalls bs rs).1 ++ (writeCalls bs rs).2.1.flatten = bs.flatten ∧
      ((writeCalls bs rs).2.2 = true ↔ (writeCalls bs rs).2.1.flatten = []) := by
  induction bs generalizing rs with
  | nil => simp [writeCalls, acceptedBytes]
  | cons b bs ih =>
    obtain ⟨hcut, hdone⟩ := bufferCalls_spec b rs (Nat.lt_succ_self _)
    rw [writeCalls]
    generalize bufferCalls (b.length + 1) b rs = r at hcut hdone ⊢
    obtain ⟨calls, b', rs', still⟩ := r
    cases still with
    | false =>
      have hne : b' ≠ [] := fun h => by simpa using hdone.2 h
      simp only [Bool.false_eq_true, if_false, List.flatten_cons, false_iff]
      refine ⟨?_, fun h => hne (List.append_eq_nil_iff.1 h).1⟩
      rw [← List.append_assoc, hcut]
    | true =>
      have hnil : b' = [] := hdone.1 rfl
      obtain ⟨hcut', hdone'⟩ := ih rs'
      simp only [if_true, List.flatten_cons, hnil, List.nil_append, acceptedBytes_append]
      refine ⟨?_, hdone'⟩
      rw [hnil, List.append_nil] at hcut
      rw [List.append_assoc, hcut', hcut]

/-- `_bytes_sent` grows by what the calls accept, also where their sends close the socket. -/
theorem writeCalls_count {i u : Nat} {calls : List (List UInt8 × WriteReply)} {w w' : World}
    (h : calls.foldlM (writeCall i u) w = .ok w') :
    (w'.impls i).bytesSent = (w.impls i).bytesSent + acceptedCount calls := by
  induction calls generalizing w with
  | nil =>
    cases h
    rfl
  | cons c calls ih =>
    simp only [List.foldlM_cons, writeCall, utpWrite, Except.bind_ok_iff, Except.pure_ok_iff] at h
    obtain ⟨w₂, ⟨w₃, ⟨-, -, w₁, hsends, rfl⟩, rfl⟩, h⟩ := h
    have hcovers : Covers (fun _ => True) w := fun _ _ _ _ _ _ _ _ => trivial
    obtain ⟨fs, hfs⟩ := sends_falls (fun _ _ _ => ⟨trivial, hcovers⟩) hsends
    rw [ih h]
    simp only [setImpl, setUtp, Function.update_self, hfs.bytesSent, acceptedCount, List.map_cons, List.sum_cons]
    omega

/-! ## One `do_write` -/

/-- libutp accepts no more than it is offered, and the sends its calls make do not close the socket. -/
def Obeys (bufs : List (List UInt8)) (rs : List WriteReply) : Prop :=
  Fit (writeCalls bufs rs).1 ∧ ∀ c ∈ (writeCalls bufs rs).1, ∀ ec ∈ c.2.sends, fatal ec = false

instance (bufs : List (List UInt8)) (rs : List WriteReply) : Decidable (Obeys bufs rs) :=
  inferInstanceAs (Decidable ((∀ c ∈ (writeCalls bufs rs).1, _) ∧ ∀ c ∈ (writeCalls bufs rs).1, _))

/-- From `w` to `w'` the calls of `utp_write` have been made. -/
structure Accepts (i u : Nat) (calls : List (List UInt8 × WriteReply)) (w w' : World) : Prop where
  written : (w'.utp u).written = (w.utp u).written ++ acceptedBytes calls
  alive : (w'.utp u).alive = true
  impl : w'.impls i = { w.impls i with bytesSent := (w.impls i).bytesSent + acceptedCount calls }
  posted : w'.posted = w.posted

theorem writeCall_accepts {i u : Nat} {c : List UInt8 × WriteReply} {w : World} (halive : (w.utp u).alive = true)
    (hquiet : ∀ ec ∈ c.2.sends, fatal ec = false) : ∃ w', writeCall i u w c = .ok w' ∧ Accepts i u [c] w w' := by
  simp only [writeCall, utpWrite, Except.require, halive, if_true, sends_quiet hquiet, Except.ok_bind, pure_bind]
  exact ⟨_, rfl, by simp [setImpl, setUtp, acceptedBytes], by simp [setImpl, setUtp],
    by simp [setImpl, setUtp, acceptedCount], rfl⟩

theorem writeCalls_accept {i u : Nat} {calls : List (List UInt8 × WriteReply)} {w : World}
    (halive : (w.utp u).alive = true) (hquiet : ∀ c ∈ calls, ∀ ec ∈ c.2.sends, fatal ec = false) :
    ∃ w', calls.foldlM (writeCall i u) w = .ok w' ∧ Accepts i u calls w w' := by
  induction calls generalizing w with
  | nil => exact ⟨w, rfl, by simp [acceptedBytes], halive, rfl, rfl⟩
  | cons c calls ih =>
    obtain ⟨w₁, h1, hc⟩ := writeCall_accepts (i := i) halive (hquiet c (by simp))
    obtain ⟨w', h2, hcs⟩ := ih hc.alive fun c' hc' => hquiet c' (by simp [hc'])
    refine ⟨w', by rw [List.foldlM_cons, h1, Except.ok_bind, h2], ?_, hcs.alive, ?_, hcs.posted.trans hc.posted⟩
    · rw [hcs.written, hc.written, List.append_assoc, ← acceptedBytes_append]
      rfl
    · rw [hcs.impl, hc.impl]
      simp [acceptedCount, Nat.add_assoc]

/-- How a write of `given` by call `op` on socket `i` stands, where `base` had been written before: libutp has
accepted a front of `given`. While something is left the handler waits, the buffers hold what is left, and
`_bytes_sent` makes up the rest; and otherwise the write is over. -/
def WriteStands (i u op : Nat) (base given : List UInt8) (w : World) : Prop :=
  ∃ front left, given = front ++ left ∧ (w.utp u).written = base ++ front ∧
    (left ≠ [] ∧ (w.impls i).handlers .send = some { op, after := true } ∧
        (w.impls i).txBuffers.flatten = left ∧ (w.impls i).bytesSent = front.length ∨
      left = [] ∧ (w.impls i).handlers .send = none ∧ (w.impls i).bytesSent = 0)

/-- The completion of a write of `given`. -/
def writeCompletion (i op : Nat) (given : List UInt8) : Completion :=
  { impl := some i, slot := .send, handler := { op, after := true }, ec := .success, size := given.length }

/-- **`do_write` takes a write as far as libutp lets it**, and completes it exactly when nothing is left. -/
theorem doWrite_stands {w : World} {i u : Nat} (x : Handler) {rs : List WriteReply} {base front : List UInt8}
    (hidle : (w.impls i).handlers .send = none) (hu : (w.impls i).utpSocket = some u)
    (halive : (w.utp u).alive = true) (hbase : (w.utp u).written = base ++ front)
    (hsent : (w.impls i).bytesSent = front.length) (hobeys : Obeys (w.impls i).txBuffers rs) :
    ∃ w', w.doWrite i x rs = .ok w' ∧ (w'.impls i).utpSocket = some u ∧
      WriteStands i u x.op base (front ++ (w.impls i).txBuffers.flatten) w' ∧
      ((w'.impls i).handlers .send = none →
        w'.posted = w.posted ++ [writeCompletion i x.op (front ++ (w.impls i).txBuffers.flatten)]) := by
  obtain ⟨w₁, hsetup⟩ := setupOp_ok w i .send x
  obtain ⟨himpl, hutp, -⟩ := setupOp_impl hsetup
  have hposted : w₁.posted = w.posted := by
    simp only [setupOp, Except.bind_ok_iff, Except.pure_ok_iff] at hsetup
    obtain ⟨c, -, rfl⟩ := hsetup
    rfl
  obtain ⟨hfit, hquiet⟩ := hobeys
  obtain ⟨w₂, hcalls, hacc⟩ := writeCalls_accept (i := i) (u := u) (w := w₁) (by rw [hutp]; exact halive) hquiet
  obtain ⟨hcut, hdone⟩ := writeCalls_spec (w.impls i).txBuffers rs
  rw [doWrite_eq hidle hu hsetup, hcalls, Except.ok_bind]
  have hself : w₂.impls i = { (w.impls i).setHandler .send (some { x with after := true }) with
      bytesSent := front.length + acceptedCount (writeCalls (w.impls i).txBuffers rs).1 } := by
    rw [hacc.impl, himpl, Function.update_self]
    simp [SocketImpl.setHandler, hsent]
  have hwritten : (w₂.utp u).written = base ++ (front ++ acceptedBytes (writeCalls (w.impls i).txBuffers rs).1) := by
    rw [hacc.written, hutp, hbase, List.append_assoc]
  have hcount := hfit.count
  rw [← hcut, ← List.append_assoc]
  generalize writeCalls (w.impls i).txBuffers rs = r at hdone hcount hself hwritten ⊢
  obtain ⟨calls, left, still⟩ := r
  dsimp only at hdone hcount hself hwritten ⊢
  cases still with
  | false =>
    have hleft : left.flatten ≠ [] := fun h => by simpa using hdone.2 h
    have hslot : ((w₂.setImpl i { w₂.impls i with txBuffers := left }).impls i).handlers .send =
        some { x with after := true } := by simp [hself]
    refine ⟨_, rfl, ?_, ⟨front ++ acceptedBytes calls, left.flatten, rfl, hwritten, .inl ⟨hleft, hslot, ?_, ?_⟩⟩, ?_⟩
    · simpa [hself, SocketImpl.setHandler] using hu
    · simp
    · simp [hself, hcount]
    · intro h
      rw [hslot] at h
      cases h
  | true =>
    have hleft : left.flatten = [] := hdone.1 rfl
    have hslot : (w₂.impls i).handlers .send = some { x with after := true } := by simp [hself]
    have hsize : (w₂.impls i).bytesSent = (front ++ acceptedBytes calls ++ left.flatten).length := by
      simp [hself, hcount, hleft]
    simp only [endWrite, postOp, setImpl, Function.update_self, hslot, if_true, Except.ok_bind]
    refine ⟨_, rfl, ?_, ⟨front ++ acceptedBytes calls, left.flatten, rfl, hwritten, .inr ⟨hleft, ?_, ?_⟩⟩, fun _ => ?_⟩
    · simpa [post, hself, SocketImpl.setHandler] using hu
    · simp [post, SocketImpl.setHandler]
    · simp
    · simp [post, hacc.posted, hposted, writeCompletion, hsize]

/-! ## Everything else -/

/-- The labels that leave a write on `i` through `u` alone. -/
def Label.Spares (i : Nat) (u : Option Nat) : Label → Prop
  | .setup j slot _ | .post j slot => j = i → slot ≠ .send
  | .take j | .data j => j ≠ i
  | .wrote u' => u ≠ some u'
  | _ => True

/-- From `w` to `w'` nothing happens to a write on `i` through `u`. -/
structure Spared (i : Nat) (u : Option Nat) (w w' : World) : Prop where
  closed : (w'.impls i).closed = (w.impls i).closed
  handler : (w'.impls i).handlers .send = (w.impls i).handlers .send
  bytesSent : (w'.impls i).bytesSent = (w.impls i).bytesSent
  txBuffers : (w'.impls i).txBuffers = (w.impls i).txBuffers
  written : ∀ u' ∈ u, (w.impls i).utpSocket = some u' →
    (w'.impls i).utpSocket = some u' ∧ (w'.utp u').written = (w.utp u').written

variable {i : Nat} {u : Option Nat}

theorem Spared.refl (w : World) : Spared i u w w := ⟨rfl, rfl, rfl, rfl, fun _ _ h => ⟨h, rfl⟩⟩

theorem Spared.trans {w w' w'' : World} (h : Spared i u w w') (h' : Spared i u w' w'') : Spared i u w w'' where
  closed := h'.closed.trans h.closed
  handler := h'.handler.trans h.handler
  bytesSent := h'.bytesSent.trans h.bytesSent
  txBuffers := h'.txBuffers.trans h.txBuffers
  written u' hu' hatt := by
    obtain ⟨hatt', hsame⟩ := h.written u' hu' hatt
    obtain ⟨hatt'', hsame'⟩ := h'.written u' hu' hatt'
    exact ⟨hatt'', hsame'.trans hsame⟩

/-- What matters of an impl to its write. -/
structure SameWrite (s s' : SocketImpl) : Prop where
  closed : s'.closed = s.closed
  handler : s'.handlers .send = s.handlers .send
  bytesSent : s'.bytesSent = s.bytesSent
  txBuffers : s'.txBuffers = s.txBuffers
  utpSocket : s.utpSocket ≠ none → s'.utpSocket = s.utpSocket

theorem Spared.of_update {w w' : World} {j : Nat} {s : SocketImpl} (himpl : w'.impls = Function.update w.impls j s)
    (hs : j = i → SameWrite (w.impls i) s) (hutp : ∀ u' ∈ u, (w.impls i).utpSocket = some u' →
      (w'.utp u').written = (w.utp u').written) : Spared i u w w' := by
  by_cases hji : j = i
  · subst hji
    have hself : w'.impls j = s := by rw [himpl, Function.update_self]
    have h := hs rfl
    exact ⟨hself ▸ h.closed, hself ▸ h.handler, hself ▸ h.bytesSent, hself ▸ h.txBuffers, fun u' hu' hatt =>
      ⟨by rw [hself, h.utpSocket (by simp [hatt]), hatt], hutp u' hu' hatt⟩⟩
  · have hother : w'.impls i = w.impls i := by rw [himpl, Function.update_of_ne (Ne.symm hji)]
    exact ⟨by rw [hother], by rw [hother], by rw [hother], by rw [hother], fun u' hu' hatt =>
      ⟨by rw [hother, hatt], hutp u' hu' hatt⟩⟩

theorem Spared.of_impls {w w' : World} (himpl : w'.impls = w.impls)
    (hutp : ∀ u' ∈ u, (w.impls i).utpSocket = some u' → (w'.utp u').written = (w.utp u').written) :
    Spared i u w w' :=
  .of_update (j := i) (by rw [himpl, Function.update_eq_self]) (fun _ => ⟨rfl, rfl, rfl, rfl, fun _ => rfl⟩) hutp

theorem sameWrite_setHandler (s : SocketImpl) {slot : Slot} (h : slot ≠ .send) (x : Option Handler) :
    SameWrite s (s.setHandler slot x) :=
  ⟨rfl, by simp [h.symm], rfl, rfl, fun _ => rfl⟩

/-- **A move that does not write leaves an open socket's write alone, or closes the socket.** -/
theorem spared_move {w w' : World} {l : Label} (hw : Sound w) (hl : l.Spares i u)
    (hbind : (∃ v, l = .bind v) → i ∈ w.registeredSockets) (hm : Move w l w') :
    (w'.impls i).closed = true ∨ Spared i u w w' := by
  have hfresh : ∀ u' ∈ u, (w.impls i).utpSocket = some u' → u' ≠ w.created := fun u' _ hatt h => by
    have := (hw.handles.attached i u' hatt).1
    omega
  cases hm with
  | setup => exact .inr (.of_update rfl (fun h => h ▸ sameWrite_setHandler _ (hl h) _) fun _ _ _ => rfl)
  | connect _ hnone _ =>
    refine .inr (.of_update rfl (fun h => ?_) fun u' hu' hatt => ?_)
    · subst h
      exact ⟨rfl, by simp [SocketImpl.setHandler], rfl, rfl, fun h => absurd hnone h⟩
    · simp [setImpl, setUtp, hfresh u' hu' hatt]
  | waiting => exact .inr (.of_update rfl (fun h => h ▸ sameWrite_setHandler _ (by simp) _) fun _ _ _ => rfl)
  | take => exact .inr (.of_update rfl (fun h => absurd h hl) fun _ _ _ => rfl)
  | post => exact .inr (.of_update rfl (fun h => h ▸ sameWrite_setHandler _ (hl h) _) fun _ _ _ => rfl)
  | @shut j ec _ _ _ =>
    obtain ⟨utp, heq, hutp⟩ := shutUtp_eq w j ec
    rw [heq]
    by_cases hji : j = i
    · subst hji
      exact .inl (by simp)
    · refine .inr (.of_update rfl (fun h => absurd h hji) fun u' _ _ => ?_)
      rcases hutp u' with h | ⟨-, h⟩ <;> simp [h]
  | finish _ hf =>
    obtain ⟨-, c, -, rfl⟩ := finishClose_ok_iff.1 hf
    exact .inr (.of_update rfl (fun h => h ▸ ⟨rfl, rfl, rfl, rfl, fun _ => rfl⟩) fun _ _ _ => rfl)
  | data => exact .inr (.of_update rfl (fun h => absurd h hl) fun _ _ _ => rfl)
  | received hs =>
    refine .inr (.of_update rfl (fun h => ?_) fun _ _ _ => rfl)
    subst h
    exact ⟨hs.closed, by rw [hs.handlers], hs.bytesSent, hs.txBuffers, fun _ => hs.utpSocket⟩
  | @wrote u' _ =>
    refine .inr (.of_impls rfl fun u'' hu'' _ => ?_)
    have hne : u'' ≠ u' := by
      rintro rfl
      exact hl hu''
    simp [hne]
  | eof | decrement => exact .inr (.of_update rfl (fun h => h ▸ ⟨rfl, rfl, rfl, rfl, fun _ => rfl⟩) fun _ _ _ => rfl)
  | create => exact .inr (.of_impls rfl fun u' hu' hatt => by simp [hfresh u' hu' hatt])
  | @accept j u' _ _ _ hnone _ _ _ _ _ _ =>
    refine .inr (.of_update rfl (fun h => ?_) fun u'' _ _ => ?_)
    · subst h
      exact ⟨rfl, by simp [SocketImpl.setHandler], rfl, rfl, fun h => absurd hnone h⟩
    · by_cases hu : u'' = u'
      · subst hu
        simp [post, setImpl, setUtp]
      · simp [post, setImpl, setUtp, hu]
  | @destroy j u' _ _ _ _ =>
    by_cases hji : j = i
    · subst hji
      exact .inl (by simp)
    · refine .inr (.of_update rfl (fun h => absurd h hji) fun u'' _ _ => ?_)
      by_cases hu : u'' = u'
      · subst hu
        simp [setImpl, setUtp]
      · simp [setImpl, setUtp, hu]
  | @die u' _ =>
    refine .inr (.of_impls rfl fun u'' _ _ => ?_)
    by_cases hu : u'' = u'
    · subst hu
      simp
    · simp [hu]
  | @bind v _ _ =>
    unfold World.bind
    split
    · exact .inr (.refl w)
    · refine .inr (.of_update rfl (fun h => ?_) fun _ _ _ => rfl)
      exact absurd (h ▸ hbind ⟨v, rfl⟩) hw.formed.unregistered
  | moveConstruct =>
    unfold World.moveConstruct
    dsimp only
    split
    · exact .inr (.of_update rfl (fun h => h ▸ ⟨rfl, rfl, rfl, rfl, fun _ => rfl⟩) fun _ _ _ => rfl)
    · exact .inr (.of_impls rfl fun _ _ _ => rfl)
  | ran =>
    unfold World.ran
    split
    · exact .inr (.refl w)
    · dsimp only
      split <;> exact .inr (.of_impls rfl fun _ _ _ => rfl)
  | direct | number | socket | release | assign | run | loop => exact .inr (.of_impls rfl fun _ _ _ => rfl)

theorem spared_traces {w : World} {ev : Event} (hw : Sound w) (hen : w.Enabled ev) (hev : ¬ w.WritesOn i ev) :
    Traces (Moves fun _ l => l.Spares i (w.impls i).utpSocket) (RaisesIn ev) id w (w.step ev) := by
  have hclosing : ∀ (_ : World) (l : Label), l.Closing → l.Spares i (w.impls i).utpSocket := fun _ l hl => by
    cases l <;> first | exact hl.elim | trivial
  have hobjects : ∀ (_ : World) (l : Label), l.Object → l.Spares i (w.impls i).utpSocket := fun _ l hl => by
    cases l <;> first | exact hl.elim | trivial
  refine hw.traces_apart (fun _ l hl => ?_) (fun _ => hobjects) (fun j hj _ l hl => ?_) hen
    (Starts.admits ?_ hclosing fun v j hj => (hw.formed.sockets v j hj).1)
  · cases l with
    | post j slot => exact fun _ h => by subst h; exact hl
    | data | wrote | setup | take => exact hl.elim
    | _ => trivial
  · have hji : j ≠ i := fun h => hev (h ▸ hj)
    cases l with
    | data k => exact fun h => hji (hl.symm.trans h)
    | post k slot => exact fun h => absurd (hl.1.symm.trans h) hji
    | wrote u' =>
      intro hi
      have hdata := (hw.handles.attached i u' hi).2.2
      rw [(hw.handles.attached j u' hl).2.2] at hdata
      exact hji (Option.some.inj hdata)
    | _ => exact hl.elim
  · cases ev with
    | asyncConnect v ep ecs onClose => exact ⟨trivial, fun _ _ => trivial⟩
    | asyncAccept v => exact ⟨trivial, fun _ _ => trivial⟩
    | asyncWriteSome v bufs rs => exact ⟨trivial, fun j hj => ⟨fun h => absurd (h ▸ hj) hev, trivial⟩⟩
    | asyncReadSome v bufs => exact ⟨trivial, fun _ _ => ⟨fun _ => trivial, fun _ => by simp, fun _ => trivial⟩⟩
    | stateChange u state rs =>
      intro j hj
      cases state with
      | writable =>
        have hji : j ≠ i := fun h => hev ⟨h ▸ hj, rfl⟩
        exact fun x _ => ⟨hji, fun h => absurd h hji, trivial⟩
      | connect | eof | destroying => trivial
    | onRead u buf ecs => exact fun _ _ => trivial
    | _ => trivial

theorem Move.registered_subset {w w' : World} {l : Label} (hm : Move w l w') :
    w.registeredSockets ⊆ w'.registeredSockets := by
  cases hm with
  | @shut j ec _ _ _ =>
    obtain ⟨utp, heq, -⟩ := shutUtp_eq w j ec
    rw [heq]
    exact List.Subset.refl _
  | finish _ hf =>
    obtain ⟨-, c, -, rfl⟩ := finishClose_ok_iff.1 hf
    exact List.Subset.refl _
  | bind =>
    unfold World.bind
    split
    · exact List.Subset.refl _
    · exact List.subset_append_left _ _
  | moveConstruct =>
    unfold World.moveConstruct
    dsimp only
    split <;> exact List.Subset.refl _
  | ran =>
    unfold World.ran
    split
    · exact List.Subset.refl _
    · dsimp only
      split <;> exact List.Subset.refl _
  | _ => exact List.Subset.refl _

/-- An event that does not write on `i` leaves its write alone, or closes it. -/
theorem spared_step {w w' : World} {ev : Event} {u : Nat} (hw : Sound w) (hu : (w.impls i).utpSocket = some u)
    (hen : w.Enabled ev) (hev : ¬ w.WritesOn i ev) (hs : w.step ev = .ok w') :
    (w'.impls i).closed = true ∨ Spared i (some u) w w' := by
  have hi : i ∈ w.registeredSockets := hw.formed.userdata u i (hw.handles.attached i u hu).2.2
  have htr := spared_traces hw hen hev
  rw [hs, hu] at htr
  refine (htr.keeps (fun s => (Sound s ∧ i ∈ s.registeredSockets) ∧
    ((s.impls i).closed = true ∨ Spared i (some u) w s)) ?_ ⟨⟨hw, hi⟩, .inr (.refl w)⟩).2
  rintro s s' ⟨⟨hsound, hreg⟩, hsofar⟩ hmove
  obtain ⟨l, hl, hm⟩ := id hmove
  refine ⟨⟨sound_move hsound hmove, hm.registered_subset hreg⟩, ?_⟩
  rcases spared_move hsound hl (fun _ => hreg) hm with hclosed | hspared
  · exact .inl hclosed
  · rcases hsofar with hclosed | hsofar
    · exact .inl (hspared.closed.trans hclosed)
    · exact .inr (hsofar.trans hspared)

/-! ## `_bytes_sent` between writes -/

/-- Where `i` is open and no write is pending on it, `_bytes_sent` is 0. -/
def UnsentAt (i : Nat) (w : World) : Prop :=
  (w.impls i).closed = false → (w.impls i).handlers .send = none → (w.impls i).bytesSent = 0

theorem Spared.unsentAt {w w' : World} (hs : Spared i u w w') (h : UnsentAt i w) : UnsentAt i w' := by
  unfold UnsentAt
  rw [hs.closed, hs.handler, hs.bytesSent]
  exact h

theorem unsentAt_move {w w' : World} {l : Label} (hw : Sound w) (hl : l.Spares i u) (h : UnsentAt i w)
    (hm : Move w l w') : UnsentAt i w' := by
  by_cases hbind : (∃ v, l = .bind v) → i ∈ w.registeredSockets
  · rcases spared_move hw hl hbind hm with hclosed | hspared
    · intro hopen
      rw [hclosed] at hopen
      cases hopen
    · exact hspared.unsentAt h
  · -- A socket that is bound now has a new impl.
    obtain ⟨⟨v, rfl⟩, -⟩ := Classical.not_imp.1 hbind
    cases hm
    unfold World.bind
    split
    · exact h
    · by_cases hi : i = w.registeredSockets.length
      · simp [UnsentAt, setSocket, hi]
      · simpa [UnsentAt, setSocket, hi] using h

/-- `do_write` leaves its handler waiting or `_bytes_sent` at 0, where the socket is not closed meanwhile. -/
theorem doWrite_unsent {w w' : World} {u : Nat} {x : Handler} {rs : List WriteReply}
    (hu : (w.impls i).utpSocket = some u) (h : w.doWrite i x rs = .ok w') : UnsentAt i w' := by
  have hidle : (w.impls i).handlers .send = none := by
    unfold doWrite at h
    simp only [Except.bind_ok_iff, Except.require_ok_iff] at h
    exact h.choose_spec.1
  obtain ⟨w₁, hsetup⟩ := setupOp_ok w i .send x
  obtain ⟨himpl, -, -⟩ := setupOp_impl hsetup
  rw [doWrite_eq hidle hu hsetup, Except.bind_ok_iff] at h
  obtain ⟨w₂, hcalls, hend⟩ := h
  unfold endWrite at hend
  dsimp only at hend
  split at hend
  · simp only [Except.bind_ok_iff, Except.pure_ok_iff] at hend
    obtain ⟨w₃, -, rfl⟩ := hend
    intro _ _
    simp
  · cases hend
    intro hopen hnone
    rcases (writeCalls_shuts hcalls).1.impl i with hsame | hshut
    · have hslot : (w₂.impls i).handlers .send = some { x with after := true } := by
        rw [hsame.handlers, himpl]
        simp
      rw [setImpl_impls, Function.update_self, hslot] at hnone
      cases hnone
    · rw [setImpl_impls, Function.update_self, hshut.shut.1] at hopen
      cases hopen

theorem step_asyncWriteSome {w : World} {v : Nat} (hv : (w.sockets v).impl = some i) (bufs : List (List UInt8))
    (rs : List WriteReply) : w.step (.asyncWriteSome v bufs rs) =
      (w.numberOp.setImpl i { w.impls i with txBuffers := bufs }).doWrite i w.nextHandler rs := by
  have hv' : (w.numberOp.sockets v).impl = some i := hv
  simp only [step, asyncWriteSome, hv']
  rfl

theorem step_writable {w : World} {u : Nat} (hu : (w.utp u).userdata = some i) (rs : List WriteReply) :
    w.step (.stateChange u .writable rs) = w.onWritable i rs := by
  simp [step, stateChange, callbackOnStateChange, hu]

theorem unsentAt_step {w w' : World} (hw : Sound w) {ev : Event} (h : UnsentAt i w) (hen : w.Enabled ev)
    (hs : w.step ev = .ok w') : UnsentAt i w' := by
  by_cases hev : w.WritesOn i ev
  · cases ev with
    | asyncWriteSome v bufs rs =>
      rw [step_asyncWriteSome hev] at hs
      cases hu : (w.impls i).utpSocket with
      | some u => exact doWrite_unsent (u := u) (by simpa using hu) hs
      | none =>
        have hidle : (w.impls i).handlers .send = none := not_not.1 (hen.2 i hev)
        rw [doWrite_detached (by simpa using hidle) (by simpa using hu)] at hs
        cases hs
        simpa [UnsentAt, post] using h
    | stateChange u state rs =>
      obtain ⟨hdata, rfl⟩ := hev
      rw [step_writable hdata, onWritable] at hs
      split at hs
      · cases hs
        exact h
      · have hu := hw.handles.back u i hen.2 hdata
        exact doWrite_unsent (u := u) (by simpa [SocketImpl.setHandler] using hu) hs
    | _ => exact hev.elim
  · have htr := spared_traces hw hen hev
    rw [hs] at htr
    refine (htr.keeps (fun s => Sound s ∧ UnsentAt i s) ?_ ⟨hw, h⟩).2
    rintro s s' ⟨hsound, hunsent⟩ hmove
    obtain ⟨l, hl, hm⟩ := id hmove
    exact ⟨sound_move hsound hmove, unsentAt_move hsound hl hunsent hm⟩

theorem reachable_unsentAt {w : World} (h : Reachable Enabled step {} w) (i : Nat) : UnsentAt i w := by
  have hboth : Sound w ∧ UnsentAt i w :=
    h.invariant (fun w => Sound w ∧ UnsentAt i w)
      (fun _ _ _ hw hen hs => ⟨sound_step hw.1 hen hs, unsentAt_step hw.1 hw.2 hen hs⟩)
      ⟨sound_init, fun _ _ => rfl⟩
  exact hboth.2

/-! ## A whole write -/

/-- What may happen while a write on `i` is under way: everything but another write on `i`, as long as the socket is
open; and where the write is resumed, libutp keeps to its part. -/
def Undisturbed (i : Nat) (w : World) (ev : Event) : Prop :=
  (w.impls i).closed = false ∧ w.Enabled ev ∧ match ev with
    | .asyncWriteSome v _ _ => (w.sockets v).impl ≠ some i
    | .stateChange u .writable rs => (w.utp u).userdata = some i → Obeys (w.impls i).txBuffers rs
    | _ => True

/-- A write on `i` in the middle of a run. -/
structure UnderWay (i u op : Nat) (base given : List UInt8) (w : World) : Prop where
  sound : Sound w
  attached : (w.impls i).utpSocket = some u
  stands : WriteStands i u op base given w

section Run

variable {op : Nat} {base given : List UInt8}

theorem Spared.stands {w w' : World} {u : Nat} (hs : Spared i (some u) w w') (hu : (w.impls i).utpSocket = some u)
    (h : WriteStands i u op base given w) : WriteStands i u op base given w' := by
  unfold WriteStands
  rw [hs.handler, hs.bytesSent, hs.txBuffers, (hs.written u rfl hu).2]
  exact h

theorem onWritable_stands {w : World} {u : Nat} {rs : List WriteReply} (h : UnderWay i u op base given w)
    (hobeys : Obeys (w.impls i).txBuffers rs) :
    ∃ w', w.onWritable i rs = .ok w' ∧ (w'.impls i).utpSocket = some u ∧ WriteStands i u op base given w' ∧
      (w.Pending i .send → ¬ w'.Pending i .send → w'.posted = w.posted ++ [writeCompletion i op given]) := by
  obtain ⟨front, left, hgiven, hwritten, ⟨-, hslot, hleft, hsent⟩ | ⟨hleft, hslot, hsent⟩⟩ := id h.stands
  · have hobeys' : Obeys ((w.setImpl i ((w.impls i).setHandler .send none)).impls i).txBuffers rs := by
      simpa [SocketImpl.setHandler] using hobeys
    obtain ⟨w', hok, hu, hstands, hposted⟩ := doWrite_stands
      (w := w.setImpl i ((w.impls i).setHandler .send none)) { op, after := true } (by simp)
      (by simpa [SocketImpl.setHandler] using h.attached) (h.sound.handles.attached i u h.attached).2.1 hwritten
      (by simpa [SocketImpl.setHandler] using hsent) hobeys'
    have hflat : front ++ ((w.setImpl i ((w.impls i).setHandler .send none)).impls i).txBuffers.flatten = given := by
      rw [hgiven, ← hleft]
      simp [SocketImpl.setHandler]
    rw [hflat] at hstands hposted
    refine ⟨w', by rw [onWritable, hslot]; exact hok, hu, hstands, fun _ hnone => ?_⟩
    exact hposted (not_not.1 hnone)
  · refine ⟨w, by rw [onWritable, hslot], h.attached, h.stands, fun hp => absurd hslot hp⟩

/-- One event of such a run: the write goes on, or is completed, or the socket is closed. -/
theorem underWay_step {w w' : World} {u : Nat} {ev : Event} (h : UnderWay i u op base given w)
    (hev : Undisturbed i w ev) (hs : w.step ev = .ok w') :
    (w'.impls i).closed = true ∨ UnderWay i u op base given w' ∧
      (w.Pending i .send → ¬ w'.Pending i .send → w'.posted = w.posted ++ [writeCompletion i op given]) := by
  obtain ⟨-, hen, hev⟩ := hev
  have hsound := sound_step h.sound hen hs
  by_cases hwrites : w.WritesOn i ev
  · cases ev with
    | asyncWriteSome v bufs rs => exact absurd hwrites hev
    | stateChange u' state rs =>
      obtain ⟨hdata, rfl⟩ := hwrites
      obtain ⟨w₁, hok, hu, hstands, hposted⟩ := onWritable_stands h (hev hdata)
      rw [step_writable hdata, hok] at hs
      cases hs
      exact .inr ⟨⟨hsound, hu, hstands⟩, hposted⟩
    | _ => exact hwrites.elim
  · rcases spared_step h.sound h.attached hen hwrites hs with hclosed | hspared
    · exact .inl hclosed
    · have hu := (hspared.written u rfl h.attached).1
      refine .inr ⟨⟨hsound, hu, hspared.stands h.attached h.stands⟩, fun hp hnone => ?_⟩
      rw [Pending, hspared.handler] at hnone
      exact absurd hp hnone

theorem underWay_run {w w' : World} {u : Nat} {evs : List Event} (h : UnderWay i u op base given w)
    (hrun : Run (Undisturbed i) step w evs w') (hopen : (w'.impls i).closed = false) :
    UnderWay i u op base given w' := by
  have hall : (w'.impls i).closed = true ∨ UnderWay i u op base given w' := by
    refine hrun.invariant (fun w => (w.impls i).closed = true ∨ UnderWay i u op base given w) ?_ (.inr h)
    rintro s ev s' hs hev hstep
    rcases hs with hclosed | hs
    · rw [hev.1] at hclosed
      cases hclosed
    · exact (underWay_step hs hev hstep).imp id And.left
  rcases hall with hclosed | hall
  · rw [hopen] at hclosed
    cases hclosed
  · exact hall

end Run

/-- **Write fidelity.** Where no write is pending on an open socket, `_bytes_sent` is 0. Whatever the buffers and
whatever libutp accepts of them, a write that starts there ends its `do_write`; and as long as the socket is open,
whatever else happens: the bytes accepted are a front of the buffers; while some are left the handler waits, and
`_bytes_sent` and the bytes in the buffers add up to the total; the write completes, with success and the total,
exactly when none are left; and no `on_writable` fails. -/
theorem write_fidelity {w₀ : World} (h₀ : Reachable Enabled step {} w₀) :
    (∀ i, (w₀.impls i).closed = false → (w₀.impls i).handlers .send = none → (w₀.impls i).bytesSent = 0) ∧
    ∀ v i u bufs rs, (w₀.sockets v).impl = some i → (w₀.impls i).closed = false →
      (w₀.impls i).utpSocket = some u → (w₀.impls i).handlers .send = none → Obeys bufs rs →
      ∃ w₁, w₀.step (.asyncWriteSome v bufs rs) = .ok w₁ ∧
        (¬ w₁.Pending i .send → w₁.posted = w₀.posted ++ [writeCompletion i w₀.ops bufs.flatten]) ∧
        ∀ evs w, Run (Undisturbed i) step w₁ evs w → (w.impls i).closed = false →
          WriteStands i u w₀.ops (w₀.utp u).written bufs.flatten w ∧
          (w.Pending i .send →
            (w.impls i).bytesSent + (w.impls i).txBuffers.flatten.length = bufs.flatten.length) ∧
          (∀ rs, Obeys (w.impls i).txBuffers rs → ∃ w', w.step (.stateChange u .writable rs) = .ok w') ∧
          ∀ ev w', Undisturbed i w ev → w.step ev = .ok w' → (w'.impls i).closed = false →
            w.Pending i .send → ¬ w'.Pending i .send →
            w'.posted = w.posted ++ [writeCompletion i w₀.ops bufs.flatten] := by
  have hw := reachable_sound h₀
  refine ⟨fun i => reachable_unsentAt h₀ i, fun v i u bufs rs hv hopen hu hidle hobeys => ?_⟩
  have halive := (hw.handles.attached i u hu).2.1
  have hsent : (w₀.impls i).bytesSent = ([] : List UInt8).length := reachable_unsentAt h₀ i hopen hidle
  have hobeys' : Obeys ((w₀.numberOp.setImpl i { w₀.impls i with txBuffers := bufs }).impls i).txBuffers rs := by
    simpa using hobeys
  obtain ⟨w₁, hok, hu₁, hstands, hposted⟩ := doWrite_stands (i := i)
    (w := w₀.numberOp.setImpl i { w₀.impls i with txBuffers := bufs }) w₀.nextHandler (by simpa using hidle)
    (by simpa using hu) halive (List.append_nil _).symm (by simpa using hsent) hobeys'
  rw [List.nil_append, setImpl_impls, Function.update_self] at hstands hposted
  rw [← step_asyncWriteSome hv] at hok
  have hen : w₀.Enabled (.asyncWriteSome v bufs rs) := by
    refine ⟨(hw.formed.sockets v i hv).2.1, fun j hj hp => ?_⟩
    cases hv.symm.trans hj
    exact hp hidle
  refine ⟨w₁, hok, fun hnone => hposted (not_not.1 hnone), fun evs w hrun hopen' => ?_⟩
  have hway := underWay_run ⟨sound_step hw hen hok, hu₁, hstands⟩ hrun hopen'
  refine ⟨hway.stands, fun hp => ?_, fun rs hrs => ?_, fun ev w' hev hs hopen'' => ?_⟩
  · obtain ⟨front, left, hgiven, -, ⟨-, -, hleft, hsent⟩ | ⟨-, hnone, -⟩⟩ := hway.stands
    · rw [hsent, hleft, hgiven, List.length_append]
    · exact absurd hnone hp
  · obtain ⟨w', hok', -⟩ := onWritable_stands hway hrs
    exact ⟨w', by rw [step_writable (hway.sound.handles.attached i u hway.attached).2.2, hok']⟩
  · rcases underWay_step hway hev hs with hclosed | ⟨-, hdone⟩
    · rw [hopen''] at hclosed
      cases hclosed
    · exact hdone

/-- Five bytes in three buffers, one of them empty: libutp takes the first buffer and one byte of the last, and the
rest in two pieces when it is writable again. -/
theorem write_fidelity_resumed :
    ∃ w₀ w₁ w,
      Run Enabled step {} [.socket, .bind 0, .asyncConnect 0 default [] [], .stateChange 0 .connect []] w₀ ∧
      w₀.step (.asyncWriteSome 0 [[1, 2], [], [3, 4, 5]] [{ accepted := 2 }, { accepted := 1 }]) = .ok w₁ ∧
      w₁.Pending 0 .send ∧ (w₁.impls 0).bytesSent + (w₁.impls 0).txBuffers.flatten.length = 5 ∧
      w₁.step (.stateChange 0 .writable [{ accepted := 1 }, { accepted := 1 }]) = .ok w ∧
      w.posted = w₁.posted ++ [writeCompletion 0 1 [1, 2, 3, 4, 5]] := by
  obtain ⟨w₀, hrun, ⟨hv, hopen, hu, hidle, hops⟩, w₁, hs₁, ⟨hopen₁, hen₁, hobeys₁, hp₁⟩, w, hs, hopen', hdone⟩ :=
    exists_run Enabled step {} [.socket, .bind 0, .asyncConnect 0 default [] [], .stateChange 0 .connect []]
    (fun w₀ => ((w₀.sockets 0).impl = some 0 ∧ (w₀.impls 0).closed = false ∧ (w₀.impls 0).utpSocket = some 0 ∧
        (w₀.impls 0).handlers .send = none ∧ w₀.ops = 1) ∧
      ∃ w₁ ∈ (w₀.step (.asyncWriteSome 0 [[1, 2], [], [3, 4, 5]] [{ accepted := 2 }, { accepted := 1 }])).toOption,
      ((w₁.impls 0).closed = false ∧ w₁.Enabled (.stateChange 0 .writable [{ accepted := 1 }, { accepted := 1 }]) ∧
        Obeys (w₁.impls 0).txBuffers [{ accepted := 1 }, { accepted := 1 }] ∧ w₁.Pending 0 .send) ∧
      ∃ w ∈ (w₁.step (.stateChange 0 .writable [{ accepted := 1 }, { accepted := 1 }])).toOption,
        (w.impls 0).closed = false ∧ ¬ w.Pending 0 .send) (by decide)
  obtain ⟨-, hwrite⟩ := write_fidelity ⟨_, hrun⟩
  obtain ⟨w₁', hok, -, hall⟩ := hwrite 0 0 0 [[1, 2], [], [3, 4, 5]] [{ accepted := 2 }, { accepted := 1 }] hv hopen hu
    hidle (by decide)
  rw [Except.ok_of_mem_toOption hs₁] at hok
  cases hok
  obtain ⟨-, hsum, -, hcompletes⟩ := hall [] w₁ .nil hopen₁
  refine ⟨w₀, w₁, w, hrun, Except.ok_of_mem_toOption hs₁, hp₁, hsum hp₁, Except.ok_of_mem_toOption hs, ?_⟩
  rw [hops] at hcompletes
  exact hcompletes _ w ⟨hopen₁, hen₁, fun _ => hobeys₁⟩ (Except.ok_of_mem_toOption hs) hopen' hp₁ hdone

end World

end AsioUtp
