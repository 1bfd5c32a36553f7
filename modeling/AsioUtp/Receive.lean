/-
The bytes of one connection, from libutp to the reads that take them.

Bytes reach a read on two paths: `on_receive` copies them into the buffers of
a read that waits and queues the rest, and `do_read` takes them off the
queue. `Transfers` says of every function what matters for both: which
completions it posts, and that the bytes these hand over together with the
bytes still queued are the bytes there were. The rest follows from that by
induction over the run.
-/
import AsioUtp.Operations

namespace AsioUtp

/-- A read of `i` that completed without an error. -/
def Completion.ReadOf (i : Nat) (c : Completion) : Prop :=
  c.impl = some i ∧ c.slot = .recv ∧ c.ec = .success

instance (i : Nat) (c : Completion) : Decidable (c.ReadOf i) := inferInstanceAs (Decidable (_ ∧ _))

namespace World

open Machine

/-! ## What reads hand over -/

/-- The bytes the completions hand to the user as what was read from `i`. -/
def handed (i : Nat) (cs : List Completion) : List UInt8 :=
  cs.flatMap fun c => if c.ReadOf i then c.data else []

/-- The bytes handed over so far. -/
def delivered (i : Nat) (w : World) : List UInt8 := handed i w.posted

@[simp] theorem handed_append (i : Nat) (cs cs' : List Completion) :
    handed i (cs ++ cs') = handed i cs ++ handed i cs' := List.flatMap_append

theorem handed_eq_nil_iff {i : Nat} {cs : List Completion} :
    handed i cs = [] ↔ ∀ c ∈ cs, c.ReadOf i → c.data = [] := by
  simp [handed, List.flatMap_eq_nil_iff]

/-- The drain loop takes what was copied off the front of the queue, which has that much. -/
theorem drain_spec {n : Nat} (queue : List Buf) (hle : n ≤ (unread queue).length) :
    ∃ queue', drain n queue = .ok queue' ∧ unread queue' = (unread queue).drop n := by
  induction queue generalizing n with
  | nil =>
    have hn : n = 0 := by simpa [unread] using hle
    subst hn
    exact ⟨[], rfl, rfl⟩
  | cons b bs ih =>
    have hcons : unread (b :: bs) = b.unread ++ unread bs := rfl
    have hlen : b.unread.length = b.data.length - b.consumed := List.length_drop
    rw [hcons, List.length_append, hlen] at hle
    rw [drain, hcons]
    by_cases hn : n = 0
    · subst hn
      exact ⟨b :: bs, rfl, rfl⟩
    · rw [if_neg hn]
      by_cases hall : b.data.length - b.consumed ≤ n
      · obtain ⟨queue', heq, hrest⟩ := ih (n := n - (b.data.length - b.consumed)) (by omega)
        rw [if_pos hall]
        have hgone : b.unread.drop n = [] := List.drop_eq_nil_of_le (by omega)
        exact ⟨queue', heq, by rw [hrest, List.drop_append, hgone, List.nil_append, hlen]⟩
      · rw [if_neg hall]
        refine ⟨_, rfl, ?_⟩
        rw [List.drop_append_of_le_length (by omega)]
        simp [unread, Buf.unread, List.drop_drop]

/-! ## What one function does to the stream -/

/-- A read of `i` waits only while nothing is queued, with room in its buffers. -/
def Waits (i : Nat) (w : World) : Prop :=
  w.Pending i .recv → (w.impls i).rxBufferQueue = [] ∧ (w.impls i).rxBuffers.flatten ≠ []

/-- From `w` to `w'`, `bytes` come in for `i` and the completions `cs` are posted. -/
structure Transfers (i : Nat) (bytes : List UInt8) (w w' : World) (cs : List Completion) : Prop where
  registered : w'.registeredSockets = w.registeredSockets
  gotEof : (w.impls i).gotEof = true → (w'.impls i).gotEof = true
  posted : w'.posted = w.posted ++ cs
  /-- No byte is lost, duplicated or moved. -/
  stream : handed i cs ++ unread (w'.impls i).rxBufferQueue = unread (w.impls i).rxBufferQueue ++ bytes
  /-- A read hands over as many bytes as it reports. -/
  sized : ∀ c ∈ cs, c.ReadOf i → c.data.length = c.size

variable {i : Nat}

theorem Transfers.refl (w : World) : Transfers i [] w w [] where
  registered := rfl
  gotEof := id
  posted := (List.append_nil _).symm
  stream := (List.append_nil _).symm
  sized := by simp

theorem Transfers.trans {w w' w'' : World} {a b : List UInt8} {cs cs' : List Completion}
    (h : Transfers i a w w' cs) (h' : Transfers i b w' w'' cs') : Transfers i (a ++ b) w w'' (cs ++ cs') where
  registered := h'.registered.trans h.registered
  gotEof := h'.gotEof ∘ h.gotEof
  posted := by rw [h'.posted, h.posted, List.append_assoc]
  stream := by
    rw [handed_append, List.append_assoc, h'.stream, ← List.append_assoc, h.stream, List.append_assoc]
  sized c hc hr := (List.mem_append.1 hc).elim (h.sized c · hr) (h'.sized c · hr)

/-- Completions that carry no data are nothing to the stream. -/
theorem Transfers.of_empty {w w' : World} {cs : List Completion}
    (hreg : w'.registeredSockets = w.registeredSockets)
    (heof : (w.impls i).gotEof = true → (w'.impls i).gotEof = true)
    (hqueue : (w'.impls i).rxBufferQueue = (w.impls i).rxBufferQueue) (hposted : w'.posted = w.posted ++ cs)
    (hcs : ∀ c ∈ cs, c.size = 0 ∧ c.data = []) : Transfers i [] w w' cs where
  registered := hreg
  gotEof := heof
  posted := hposted
  stream := by
    rw [handed_eq_nil_iff.2 fun c hc _ => (hcs c hc).2, hqueue, List.nil_append, List.append_nil]
  sized c hc _ := by
    rw [(hcs c hc).1, (hcs c hc).2]
    rfl

theorem closings_empty {s : SocketImpl} {j : Nat} {ec : ErrorCode} :
    ∀ c ∈ closings s j ec, c.size = 0 ∧ c.data = [] := by
  intro c hc
  simp only [closings, List.mem_filterMap, Option.map_eq_some_iff] at hc
  obtain ⟨-, -, -, -, rfl⟩ := hc
  exact ⟨rfl, rfl⟩

theorem waits_idle {w : World} (h : (w.impls i).handlers .recv = none) : Waits i w := fun hp => absurd h hp

theorem Waits.congr {w w' : World} (h : Waits i w)
    (hp : (w'.impls i).handlers .recv = (w.impls i).handlers .recv)
    (hq : (w'.impls i).rxBufferQueue = (w.impls i).rxBufferQueue)
    (hb : (w'.impls i).rxBuffers = (w.impls i).rxBuffers) : Waits i w' := by
  intro hpending
  rw [Pending, hp] at hpending
  rw [hq, hb]
  exact h hpending

/-- Shutting a socket completes its read, or leaves another socket's read alone. -/
theorem shutUtp_transfers (w : World) (j : Nat) (ec : ErrorCode) :
    Transfers i [] w (w.shutUtp j ec) (closings (w.impls j) j ec) ∧ (Waits i w → Waits i (w.shutUtp j ec)) := by
  obtain ⟨utp, heq, -⟩ := shutUtp_eq w j ec
  rw [heq]
  have hqueue := update_field SocketImpl.rxBufferQueue
    (s := { w.impls j with closed := true, handlers := fun _ => none }) (by rfl) i
  refine ⟨.of_empty rfl (fun h => ?_) hqueue rfl closings_empty, fun h => ?_⟩
  · rwa [update_field SocketImpl.gotEof (by rfl) i]
  · by_cases hij : i = j
    · subst hij
      exact waits_idle (by simp)
    · exact h.congr (by simp [hij]) (by simp [hij]) (by simp [hij])

theorem Closes.transfers {w w' : World} (h : Closes w w') :
    ∃ cs, Transfers i [] w w' cs ∧ (Waits i w → Waits i w') := by
  obtain ⟨l, hl, h⟩ := h
  cases h with
  | @shut j ec _ _ _ => exact ⟨_, shutUtp_transfers w j ec⟩
  | finish _ hf =>
    obtain ⟨-, c, -, rfl⟩ := finishClose_ok_iff.1 hf
    refine ⟨[], .of_empty rfl (fun h => ?_) (update_field SocketImpl.rxBufferQueue (by rfl) i)
      (List.append_nil _).symm (by simp), fun h => ?_⟩
    · rwa [update_field SocketImpl.gotEof (by rfl) i]
    · exact h.congr (update_field (fun s : SocketImpl => s.handlers .recv) (by rfl) i)
        (update_field SocketImpl.rxBufferQueue (by rfl) i) (update_field SocketImpl.rxBuffers (by rfl) i)
  | _ => exact hl.elim

theorem closeWithError_transfers {w w' : World} {j : Nat} {ec : ErrorCode} (hj : j ∈ w.registeredSockets)
    (h : w.closeWithError j ec = .ok w') : ∃ cs, Transfers i [] w w' cs ∧ (Waits i w → Waits i w') := by
  have htr := closeWithError_closes hj ec
  rw [h] at htr
  refine htr.keeps (fun w' => ∃ cs, Transfers i [] w w' cs ∧ (Waits i w → Waits i w')) ?_ ⟨[], .refl w, id⟩
  rintro s s' ⟨cs, hs, hw⟩ hm
  obtain ⟨cs', hs', hw'⟩ := hm.transfers (i := i)
  exact ⟨cs ++ cs', hs.trans hs', hw' ∘ hw⟩

/-- A reset is reported to a read only at the end of the stream, with everything handed over before. -/
def ResetsAtEnd (i : Nat) (w' : World) (cs : List Completion) : Prop :=
  (∃ c ∈ cs, c.impl = some i ∧ c.slot = .recv ∧ c.ec = .connectionReset) →
    (w'.impls i).gotEof = true ∧ handed i cs = [] ∧ unread (w'.impls i).rxBufferQueue = []

theorem resetsAtEnd_of_ne {w' : World} {cs : List Completion} (h : ∀ c ∈ cs, c.ec ≠ .connectionReset) :
    ResetsAtEnd i w' cs := fun ⟨c, hc, _, _, hec⟩ => absurd hec (h c hc)

/-- The call comes to its end, having moved `bytes` in. -/
def Serves (i : Nat) (bytes : List UInt8) (w : World) (r : Except Fault World) : Prop :=
  ∃ w' cs, r = .ok w' ∧ Transfers i bytes w w' cs ∧ Waits i w' ∧ ResetsAtEnd i w' cs

theorem Serves.after {w w₁ : World} {bytes : List UInt8} {r : Except Fault World} (h : Transfers i [] w w₁ [])
    (hr : Serves i bytes w₁ r) : Serves i bytes w r := by
  obtain ⟨w', cs, heq, htr, hwaits, hreset⟩ := hr
  exact ⟨w', cs, heq, h.trans htr, hwaits, hreset⟩

/-- A read completes with the first bytes of what was queued and what comes in, and the rest stays. -/
theorem postOp_serves {w : World} {s : SocketImpl} {n : Nat} {data bytes : List UInt8}
    (hs : SameButReceived (w.impls i) s) (hp : w.Pending i .recv) (hlen : data.length = n)
    (hcut : data ++ unread s.rxBufferQueue = unread (w.impls i).rxBufferQueue ++ bytes) :
    Serves i bytes w ((w.setImpl i s).postOp i .recv .success n data) := by
  obtain ⟨x, hx⟩ := Option.ne_none_iff_exists'.1 hp
  have hx' : ((w.setImpl i s).impls i).handlers .recv = some x := by
    rw [setImpl_impls, Function.update_self, hs.handlers, hx]
  simp only [postOp, hx']
  refine ⟨_, [{ impl := some i, slot := .recv, handler := x, ec := .success, size := n, data }], rfl,
    ⟨rfl, ?_, rfl, ?_, ?_⟩, waits_idle (by simp [post]), resetsAtEnd_of_ne (by simp)⟩
  · simp [post, SocketImpl.setHandler, hs.gotEof]
  · simpa [post, SocketImpl.setHandler, handed, Completion.ReadOf] using hcut
  · simpa using fun _ => hlen

/-! ### `on_receive` -/

/-- What a read that waits is given and what is then queued are the chunk, cut in two. -/
theorem fill_spec {s : SocketImpl} (buf : List UInt8) (hqueue : s.rxBufferQueue = [])
    (hbufs : s.rxBuffers.flatten ≠ []) :
    (fillBuffers s.rxBuffers buf).2.1 ≤ (fill s buf).rxBuffers.flatten.length ∧
      (fill s buf).rxBuffers.flatten.take (fillBuffers s.rxBuffers buf).2.1 ++ unread (fill s buf).rxBufferQueue =
        buf := by
  cases hds : s.rxBuffers with
  | nil =>
    rw [hds] at hbufs
    exact absurd rfl hbufs
  | cons d ds =>
    have hleft : unread (if buf.drop d.length = [] then [] else [{ data := buf.drop d.length }]) =
        buf.drop d.length := by
      split
      · next h => rw [h]; rfl
      · simp [unread, Buf.unread]
    have hlen : min d.length buf.length ≤ (Scatter.overwrite d buf).length := by
      rw [Scatter.length_overwrite]
      omega
    simp only [fill, hds, fillBuffers_cons, hqueue, List.nil_append, List.flatten_cons, hleft]
    rw [List.take_append_of_le_length hlen, Scatter.take_overwrite, List.take_append_drop]
    exact ⟨by rw [List.length_append]; omega, rfl⟩

theorem drainedIf_quiet {w : World} {u : Nat} (hu : (w.impls i).utpSocket = some u) (halive : (w.utp u).alive = true)
    (drained : Bool) : w.drainedIf i drained [] = .ok w := by
  unfold drainedIf
  split
  · rw [hu]
    simp [utpReadDrained, Except.require, halive, sends, pure, Except.pure]
  · rfl

/-- **`on_receive` hands a chunk to the read that waits, or queues it**; it fails no assert. -/
theorem onReceive_serves {w : World} (h : Waits i w) {u : Nat} (hu : (w.impls i).utpSocket = some u)
    (halive : (w.utp u).alive = true) (chunk : List UInt8) : Serves i chunk w (w.onReceive i chunk []) := by
  unfold onReceive
  dsimp only
  split
  · next hnone =>
    refine ⟨_, [], rfl, ⟨rfl, by simp, (List.append_nil _).symm, ?_, by simp⟩,
      waits_idle (by simpa using hnone), resetsAtEnd_of_ne (by simp)⟩
    simp [handed, unread, Buf.unread]
  · next x hx =>
    have hp : w.Pending i .recv := by rw [Pending, hx]; simp
    obtain ⟨hqueue, hbufs⟩ := h hp
    obtain ⟨hle, hcut⟩ := fill_spec chunk hqueue hbufs
    have hdrained := drainedIf_quiet (w := w.setImpl i (fill (w.impls i) chunk)) (i := i) (u := u)
      (by simpa [fill] using hu) halive
    simp only [Except.require, hqueue, if_true, hdrained]
    refine postOp_serves (.rx _ _ _) hp (List.length_take_of_le hle) ?_
    rw [hcut, hqueue]
    rfl

/-! ### `do_read` -/

/-- A handler that was in no slot is posted without data. -/
theorem post_transfers {w : World} {c : Completion} (hc : c.size = 0 ∧ c.data = []) :
    Transfers i [] w (w.post c) [c] :=
  .of_empty rfl id rfl rfl (by simpa using hc)

/-- `setup_op` moves no data. -/
theorem setupOp_transfers (w : World) (slot : Slot) (x : Handler) :
    ∃ w₁, w.setupOp i slot x = .ok w₁ ∧ Transfers i [] w w₁ [] ∧
      w₁.impls i = (w.impls i).setHandler slot (some { x with after := true }) := by
  obtain ⟨t, m, hinc⟩ := Context.increment_spec w.ctx
  simp only [setupOp, hinc, Except.ok_bind, Except.pure_ok_iff]
  refine ⟨_, rfl, .of_empty rfl ?_ ?_ (List.append_nil _).symm (by simp), by simp⟩ <;> simp [SocketImpl.setHandler]

/-- **`do_read` takes what is queued, waits, or reports the end of the stream**; it fails no assert. -/
theorem doRead_serves {w : World} (hidle : (w.impls i).handlers .recv = none) (x : Handler) :
    Serves i [] w (w.doRead i x) := by
  unfold doRead
  simp only [Except.require, hidle, if_true, Except.ok_bind]
  split
  · exact ⟨_, _, rfl, post_transfers ⟨rfl, rfl⟩, waits_idle hidle, resetsAtEnd_of_ne (by simp)⟩
  next hopen =>
  split
  · exact ⟨_, _, rfl, post_transfers ⟨rfl, rfl⟩, waits_idle hidle, resetsAtEnd_of_ne (by simp)⟩
  next hlen =>
  obtain ⟨w₁, heq, hsetup, himpl⟩ := setupOp_transfers (i := i) w .recv x
  have hp : w₁.Pending i .recv := by simp [Pending, himpl]
  have hq : (w₁.impls i).rxBufferQueue = (w.impls i).rxBufferQueue := by rw [himpl]; rfl
  simp only [heq, Except.ok_bind]
  refine .after hsetup ?_
  split
  · next hqueue =>
    split
    · next heof =>
      -- Everything has been read, and nothing more will come.
      have heof₁ : (w₁.impls i).gotEof = true := hsetup.gotEof heof
      obtain ⟨hclose, hshut⟩ := closeWithError_simple .connectionReset (w := w₁) (i := i)
        (by rw [himpl]; simpa [SocketImpl.setHandler] using hopen) (.inr heof₁)
      obtain ⟨htr, -⟩ := shutUtp_transfers (i := i) w₁ i .connectionReset
      rw [hshut] at htr
      refine ⟨_, _, hclose, htr, waits_idle (by simp [shut_eq]), fun _ => ⟨htr.gotEof heof₁, ?_, ?_⟩⟩
      · exact handed_eq_nil_iff.2 fun c hc _ => (closings_empty c hc).2
      · rw [shut_eq]
        simp [hq, hqueue, unread]
    · refine ⟨_, _, rfl, .refl w₁, fun _ => ⟨hq.trans hqueue, ?_⟩, resetsAtEnd_of_ne (by simp)⟩
      rw [himpl]
      exact fun hnil => hlen (List.length_eq_zero_iff.2 hnil)
  · obtain ⟨queue, hdrain, hrest⟩ := drain_spec (w.impls i).rxBufferQueue
      (Nat.min_le_right (w.impls i).rxBuffers.flatten.length _)
    rw [← Scatter.copied] at hdrain hrest
    simp only [hdrain, Except.ok_bind]
    refine postOp_serves (.rx _ _ _) hp (Scatter.length_take_copy _ _) ?_
    rw [hrest, hq, List.append_nil]
    exact Scatter.take_copy_append_drop _ _

/-! ### `on_eof` -/

/-- **`on_eof` reports the end to a read that waits**, for which nothing is queued. -/
theorem onEof_serves {w : World} (h : Waits i w) (heof : (w.impls i).gotEof = false) :
    Serves i [] w (w.onEof i) := by
  have hset : Transfers i [] w (w.setImpl i { w.impls i with gotEof := true }) [] :=
    .of_empty rfl (by simp) (by simp) (List.append_nil _).symm (by simp)
  unfold onEof
  simp only [Except.require, heof, if_true, Except.ok_bind]
  refine .after hset ?_
  unfold postIfSet
  split
  · next hnone => exact ⟨_, _, rfl, .refl _, waits_idle hnone, resetsAtEnd_of_ne (by simp)⟩
  · next x hx =>
    have hx : (w.impls i).handlers .recv = some x := by simpa using hx
    obtain ⟨hqueue, -⟩ := h (by rw [Pending, hx]; simp)
    refine ⟨_, _, rfl, .of_empty rfl (by simp [post, SocketImpl.setHandler])
      (by simp [post, SocketImpl.setHandler]) rfl (by simp), waits_idle (by simp [post]), fun _ => ?_⟩
    simp [post, SocketImpl.setHandler, hqueue, unread, handed]

/-! ## Runs -/

/-- What happens to the receiving side of one socket. -/
inductive StreamEvent
  | receive (chunk : List UInt8)
  | read (bufs : List (List UInt8))
  | eof
  | close (ec : ErrorCode)
  deriving Repr, DecidableEq

/-- The bytes libutp delivers with the event. -/
def StreamEvent.bytes : StreamEvent → List UInt8
  | .receive chunk => chunk
  | .read _ | .eof | .close _ => []

/-- One event of socket `i`. A read is numbered and given its buffers as `async_read_some` does it; the sends of
`utp_read_drained` close no socket. -/
def streamStep (i : Nat) (w : World) : StreamEvent → Except Fault World
  | .receive chunk => w.onReceive i chunk []
  | .read bufs => (w.numberOp.setImpl i { w.impls i with rxBuffers := bufs }).doRead i w.nextHandler
  | .eof => w.onEof i
  | .close ec => w.closeWithError i ec

/-- One read at a time; and libutp delivers from a `utp_socket` that is attached and alive, nothing after the end. -/
def Offered (i : Nat) (w : World) : StreamEvent → Prop
  | .receive _ => (w.impls i).gotEof = false ∧ ∃ u ∈ (w.impls i).utpSocket, (w.utp u).alive = true
  | .eof => (w.impls i).gotEof = false
  | .read _ => (w.impls i).handlers .recv = none
  | .close _ => True

instance (i : Nat) (w : World) : (ev : StreamEvent) → Decidable (Offered i w ev)
  | .receive _ => inferInstanceAs (Decidable (_ ∧ _))
  | .eof => inferInstanceAs (Decidable (_ = _))
  | .read _ => inferInstanceAs (Decidable (_ = _))
  | .close _ => inferInstanceAs (Decidable True)

/-- All the bytes libutp has delivered. -/
def received (evs : List StreamEvent) : List UInt8 := evs.flatMap StreamEvent.bytes

/-- These are events of the whole system: reads on the socket that owns `i`, and callbacks of the `utp_socket`
that has `i` for its userdata. -/
theorem step_eq_streamStep {w : World} {v u : Nat} (hv : (w.sockets v).impl = some i)
    (hu : (w.utp u).userdata = some i) (chunk : List UInt8) (bufs : List (List UInt8)) (rs : List WriteReply) :
    w.step (.onRead u chunk []) = streamStep i w (.receive chunk) ∧
    w.step (.asyncReadSome v bufs) = streamStep i w (.read bufs) ∧
    w.step (.stateChange u .eof rs) = streamStep i w .eof := by
  have hv' : (w.numberOp.sockets v).impl = some i := hv
  refine ⟨?_, ?_, ?_⟩
  · simp only [step, callbackOnRead, hu, streamStep]
  · simp only [step, asyncReadSome, hv']
    rfl
  · simp [step, stateChange, callbackOnStateChange, hu, streamStep]

theorem streamStep_serves {w : World} (h : Waits i w) {ev : StreamEvent} (hen : Offered i w ev)
    (hev : ∀ ec, ev ≠ .close ec) : Serves i ev.bytes w (streamStep i w ev) := by
  cases ev with
  | receive chunk =>
    obtain ⟨-, u, hu, halive⟩ := hen
    exact onReceive_serves h hu halive chunk
  | read bufs =>
    have hidle : (w.impls i).handlers .recv = none := hen
    have hset : Transfers i [] w (w.numberOp.setImpl i { w.impls i with rxBuffers := bufs }) [] :=
      .of_empty rfl (by simp) (by simp) (List.append_nil _).symm (by simp)
    exact .after hset (doRead_serves (by simpa using hidle) _)
  | eof => exact onEof_serves h hen
  | close ec => exact absurd rfl (hev ec)

/-- What every event keeps. -/
structure Streaming (i : Nat) (w : World) : Prop where
  registered : i ∈ w.registeredSockets
  waits : Waits i w

theorem Streaming.step {w w' : World} (h : Streaming i w) {ev : StreamEvent} (hen : Offered i w ev)
    (hs : streamStep i w ev = .ok w') : Streaming i w' ∧ ∃ cs, Transfers i ev.bytes w w' cs ∧
      ((∀ ec, ev ≠ .close ec) → ResetsAtEnd i w' cs) := by
  by_cases hev : ∃ ec, ev = .close ec
  · obtain ⟨ec, rfl⟩ := hev
    obtain ⟨cs, htr, hwaits⟩ := closeWithError_transfers (i := i) h.registered hs
    exact ⟨⟨htr.registered ▸ h.registered, hwaits h.waits⟩, cs, htr, fun hne => absurd rfl (hne ec)⟩
  · obtain ⟨w₁, cs, heq, htr, hwaits, hreset⟩ := streamStep_serves h.waits hen fun ec he => hev ⟨ec, he⟩
    rw [heq] at hs
    cases hs
    exact ⟨⟨htr.registered ▸ h.registered, hwaits⟩, cs, htr, fun _ => hreset⟩

theorem Streaming.run {w w' : World} {evs : List StreamEvent} (h : Streaming i w)
    (hrun : Run (Offered i) (World.streamStep i) w evs w') :
    Streaming i w' ∧ ∃ cs, Transfers i (received evs) w w' cs := by
  induction hrun with
  | nil => exact ⟨h, [], .refl _⟩
  | cons hen hs _ ih =>
    obtain ⟨h', cs, htr, -⟩ := h.step hen hs
    obtain ⟨h'', cs', htr'⟩ := ih h'
    exact ⟨h'', cs ++ cs', htr.trans htr'⟩

/-- Nothing is received after the end. -/
theorem Streaming.run_ended {w w' : World} {evs : List StreamEvent} (h : Streaming i w)
    (heof : (w.impls i).gotEof = true) (hrun : Run (Offered i) (World.streamStep i) w evs w') : received evs = [] := by
  induction hrun with
  | nil => rfl
  | @cons s ev s' evs s'' hen hs _ ih =>
    obtain ⟨h', cs, htr, -⟩ := h.step hen hs
    have hrest : received evs = [] := ih h' (htr.gotEof heof)
    have hev : ev.bytes = [] := by
      cases ev with
      | receive chunk =>
        obtain ⟨hopen, -⟩ := hen
        rw [heof] at hopen
        cases hopen
      | read | eof | close => rfl
    rw [received, List.flatMap_cons, hev]
    exact hrest

/-- A socket that has received nothing yet, and on which no read has completed. A read may wait. -/
structure Unused (i : Nat) (w : World) : Prop where
  registered : i ∈ w.registeredSockets
  queue : (w.impls i).rxBufferQueue = []
  room : w.Pending i .recv → (w.impls i).rxBuffers.flatten ≠ []
  unread : ∀ c ∈ w.posted, ¬ (c.impl = some i ∧ c.slot = .recv)

theorem Unused.run {w₀ w : World} {evs : List StreamEvent} (h : Unused i w₀)
    (hrun : Run (Offered i) (World.streamStep i) w₀ evs w) :
    Streaming i w ∧ delivered i w ++ World.unread (w.impls i).rxBufferQueue = received evs ∧
      ∀ c ∈ w.posted, c.ReadOf i → c.data.length = c.size := by
  have hnew : ∀ c ∈ w₀.posted, ¬ c.ReadOf i := fun c hc hr => h.unread c hc ⟨hr.1, hr.2.1⟩
  have hstart : Streaming i w₀ := ⟨h.registered, fun hp => ⟨h.queue, h.room hp⟩⟩
  obtain ⟨hw, cs, htr⟩ := hstart.run hrun
  have hnone : handed i w₀.posted = [] := handed_eq_nil_iff.2 fun c hc hr => absurd hr (hnew c hc)
  refine ⟨hw, ?_, fun c hc hr => ?_⟩
  · rw [delivered, htr.posted, handed_append, hnone, List.nil_append, htr.stream, h.queue]
    rfl
  · rw [htr.posted] at hc
    exact (List.mem_append.1 hc).elim (fun hc => absurd hr (hnew c hc)) (htr.sized c · hr)

/-- **Receive stream integrity.** However chunks, reads, the end of the stream and `close_with_error` interleave:
what the reads were given, then what is queued, is what was received; a read waits only while nothing is queued;
`on_receive`, `do_read` and `on_eof` fail no assert; and a reset is reported for the end of the stream only when
everything received has been handed over, after which no read gets any bytes. -/
theorem receive_stream {w₀ w : World} {evs : List StreamEvent} (hstart : Unused i w₀)
    (hrun : Run (Offered i) (streamStep i) w₀ evs w) :
    (delivered i w ++ unread (w.impls i).rxBufferQueue = received evs ∧
      ∀ c ∈ w.posted, c.ReadOf i → c.data.length = c.size) ∧
    (w.Pending i .recv → (w.impls i).rxBufferQueue = []) ∧
    (∀ ev, Offered i w ev → (∀ ec, ev ≠ .close ec) → ∃ w', streamStep i w ev = .ok w') ∧
    ∀ ev w', Offered i w ev → (∀ ec, ev ≠ .close ec) → streamStep i w ev = .ok w' →
      (∃ c ∈ w'.posted.drop w.posted.length, c.impl = some i ∧ c.slot = .recv ∧ c.ec = .connectionReset) →
      (w'.impls i).gotEof = true ∧ delivered i w = received evs ∧
        ∀ evs' w'', Run (Offered i) (streamStep i) w' evs' w'' →
          ∀ c ∈ w''.posted.drop w'.posted.length, c.ReadOf i → c.size = 0 := by
  obtain ⟨hw, hstream, hsized⟩ := hstart.run hrun
  refine ⟨⟨hstream, hsized⟩, fun hp => (hw.waits hp).1, fun ev hen hev => ?_, ?_⟩
  · obtain ⟨w', cs, heq, -⟩ := streamStep_serves hw.waits hen hev
    exact ⟨w', heq⟩
  · intro ev w' hen hev hs hreset
    obtain ⟨hw', cs, htr, hend⟩ := hw.step hen hs
    rw [htr.posted, List.drop_left] at hreset
    obtain ⟨heof, hnothing, hempty⟩ := hend hev hreset
    have hqueue : unread (w.impls i).rxBufferQueue = [] := by
      have := htr.stream
      rw [hnothing, hempty] at this
      exact (List.append_eq_nil_iff.1 this.symm).1
    refine ⟨heof, by rw [← hstream, hqueue, List.append_nil], ?_⟩
    intro evs' w'' hrun' c hc hr
    obtain ⟨-, cs', htr'⟩ := hw'.run hrun'
    rw [htr'.posted, List.drop_left] at hc
    -- Nothing is queued and nothing comes in, so there is nothing to hand over.
    have hall := htr'.stream
    rw [hempty, hw'.run_ended heof hrun'] at hall
    have hdata : c.data = [] := handed_eq_nil_iff.1 (List.append_eq_nil_iff.1 hall).1 c hc hr
    rw [← htr'.sized c hc hr, hdata]
    rfl

/-- A connection is made, and five bytes come in two chunks: the first is queued and read in two parts, the
second finds a read waiting whose first buffer has room for one byte. With everything read, the end is reported. -/
theorem receive_stream_reset :
    ∃ w₀ w w',
      Run Enabled step {} [.socket, .bind 0, .asyncConnect 0 default [] [], .stateChange 0 .connect []] w₀ ∧
      Run (Offered 0) (streamStep 0) w₀ [.receive [1, 2, 3], .read [[0], [0]], .read [[0, 0]], .read [[0], [0]],
        .receive [4, 5], .eof, .read [[0, 0, 0]]] w ∧
      streamStep 0 w (.read [[0]]) = .ok w' ∧
      (∃ c ∈ w'.posted.drop w.posted.length, c.impl = some 0 ∧ c.slot = .recv ∧ c.ec = .connectionReset) ∧
      delivered 0 w = [1, 2, 3, 4, 5] := by
  obtain ⟨w₀, hrun₀, hreg, hqueue, hroom, hposted, hexec⟩ := exists_run Enabled step {}
    [.socket, .bind 0, .asyncConnect 0 default [] [], .stateChange 0 .connect []]
    (fun w₀ => 0 ∈ w₀.registeredSockets ∧ (w₀.impls 0).rxBufferQueue = [] ∧
      (w₀.Pending 0 .recv → (w₀.impls 0).rxBuffers.flatten ≠ []) ∧
      (∀ c ∈ w₀.posted, ¬ (c.impl = some 0 ∧ c.slot = .recv)) ∧
      ∃ w ∈ exec (Offered 0) (streamStep 0) w₀ [.receive [1, 2, 3], .read [[0], [0]], .read [[0, 0]],
        .read [[0], [0]], .receive [4, 5], .eof, .read [[0, 0, 0]]], Offered 0 w (.read [[0]]) ∧
      ∃ w' ∈ (streamStep 0 w (.read [[0]])).toOption,
        ∃ c ∈ w'.posted.drop w.posted.length, c.impl = some 0 ∧ c.slot = .recv ∧ c.ec = .connectionReset)
    (by decide)
  obtain ⟨w, hexec, hen, w', hok, hreset⟩ := hexec
  have hrun := run_of_exec hexec
  have hs : streamStep 0 w (.read [[0]]) = .ok w' := Except.ok_of_mem_toOption hok
  obtain ⟨-, -, -, hend⟩ := receive_stream ⟨hreg, hqueue, hroom, hposted⟩ hrun
  obtain ⟨-, hall, -⟩ := hend _ w' hen (by simp) hs hreset
  exact ⟨w₀, w, w', hrun₀, hrun, hs, hreset, hall⟩

end World

end AsioUtp
