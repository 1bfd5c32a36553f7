/-
The two paths of a read, compared. A chunk that finds a read waiting is copied
by the loop of `on_receive`; one that comes first is queued, and `do_read`
copies it with `buffer_copy`. From the same socket, with the same buffers and
the same chunk, both come to a closed form (`directRead_reads`,
`queuedRead_reads`), and these agree where the loop, which leaves at the first
buffer it fills, has nothing to put in a later one.
-/
import AsioUtp.Receive

namespace AsioUtp

namespace World

open Machine

variable {i : Nat}

/-- `do_read`, then `on_receive`: the chunk finds the read waiting. -/
def directRead (i : Nat) (w : World) (bufs : List (List UInt8)) (chunk : List UInt8) : Except Fault World := do
  let w ← streamStep i w (.read bufs)
  streamStep i w (.receive chunk)

/-- `on_receive`, then `do_read`: the read finds the chunk queued. -/
def queuedRead (i : Nat) (w : World) (bufs : List (List UInt8)) (chunk : List UInt8) : Except Fault World := do
  let w ← streamStep i w (.receive chunk)
  streamStep i w (.read bufs)

/-- An open socket on which nothing waits, neither bytes nor a read. -/
structure Ready (i : Nat) (w : World) : Prop where
  opened : (w.impls i).closed = false
  attached : ∃ u, (w.impls i).utpSocket = some u ∧ (w.utp u).alive = true
  gotEof : (w.impls i).gotEof = false
  queue : (w.impls i).rxBufferQueue = []
  idle : (w.impls i).handlers .recv = none

/-- From `w` to `w'` the next call, a read, completes with `data`; its buffers are then `bufs`, and the bytes
`left` are queued. -/
structure Reads (i : Nat) (w w' : World) (data : List UInt8) (bufs : List (List UInt8)) (left : List UInt8) :
    Prop where
  posted : w'.posted = w.posted ++ [{
    impl := some i, slot := .recv, handler := { w.nextHandler with after := true }, ec := .success,
    size := data.length, data := data }]
  buffers : (w'.impls i).rxBuffers = bufs
  queued : unread (w'.impls i).rxBufferQueue = left

/-- The same completions with the same sizes, the same bytes in the same positions of the buffers, and the same
bytes left to be read. -/
def SameRead (i : Nat) (w₁ w₂ : World) : Prop :=
  w₁.posted = w₂.posted ∧ (w₁.impls i).rxBuffers = (w₂.impls i).rxBuffers ∧
    unread (w₁.impls i).rxBufferQueue = unread (w₂.impls i).rxBufferQueue

theorem postOp_reads {w w₁ : World} {s : SocketImpl} {data : List UInt8} {n : Nat} (hposted : w₁.posted = w.posted)
    (hs : s.handlers .recv = some { w.nextHandler with after := true }) (hn : data.length = n) :
    ∃ w', (w₁.setImpl i s).postOp i .recv .success n data = .ok w' ∧
      Reads i w w' data s.rxBuffers (unread s.rxBufferQueue) := by
  have hs' : ((w₁.setImpl i s).impls i).handlers .recv = some { w.nextHandler with after := true } := by
    rw [setImpl_impls, Function.update_self, hs]
  simp only [postOp, hs']
  subst hn
  exact ⟨_, rfl, by rw [← hposted]; rfl, by simp [post, SocketImpl.setHandler], by simp [post, SocketImpl.setHandler]⟩

/-! ## The direct path -/

theorem doRead_waits {w : World} (hopen : (w.impls i).closed = false) (heof : (w.impls i).gotEof = false)
    (hqueue : (w.impls i).rxBufferQueue = []) (hidle : (w.impls i).handlers .recv = none)
    (hbufs : (w.impls i).rxBuffers.flatten ≠ []) (x : Handler) : w.doRead i x = w.setupOp i .recv x := by
  have hlen : (w.impls i).rxBuffers.flatten.length ≠ 0 := fun h0 => hbufs (List.length_eq_zero_iff.1 h0)
  unfold doRead
  simp only [Except.require, hidle, hopen, hqueue, heof, hlen, if_true, if_false, Bool.false_eq_true, Except.ok_bind]
  exact bind_pure _

theorem read_waits {w : World} (h : Ready i w) {bufs : List (List UInt8)} (hbufs : bufs.flatten ≠ []) :
    ∃ w₁, streamStep i w (.read bufs) = .ok w₁ ∧ w₁.utp = w.utp ∧ w₁.posted = w.posted ∧
      w₁.impls i = ({ w.impls i with rxBuffers := bufs } : SocketImpl).setHandler .recv
        (some { w.nextHandler with after := true }) := by
  obtain ⟨t, m, hinc⟩ := Context.increment_spec w.ctx
  have hwaits := doRead_waits (i := i) (w := w.numberOp.setImpl i { w.impls i with rxBuffers := bufs })
    (by simpa using h.opened) (by simpa using h.gotEof) (by simpa using h.queue) (by simpa using h.idle)
    (by simpa using hbufs) w.nextHandler
  rw [streamStep, hwaits, setupOp]
  exact ⟨_, Except.bind_ok_iff.2 ⟨_, hinc, rfl⟩, rfl, rfl, by simp⟩

theorem directRead_reads {w : World} (h : Ready i w) {d : List UInt8} {ds : List (List UInt8)}
    (hbufs : (d :: ds).flatten ≠ []) (chunk : List UInt8) :
    ∃ w₁, directRead i w (d :: ds) chunk = .ok w₁ ∧
      Reads i w w₁ (chunk.take d.length) (Scatter.overwrite d chunk :: ds) (chunk.drop d.length) := by
  obtain ⟨u, hu, halive⟩ := h.attached
  obtain ⟨w₁, hread, hutp, hposted, himpl⟩ := read_waits h hbufs
  have hrecv : (w₁.impls i).handlers .recv = some { w.nextHandler with after := true } := by simp [himpl]
  have hqueue : (w₁.impls i).rxBufferQueue = [] := by rw [himpl]; exact h.queue
  have hrx : (w₁.impls i).rxBuffers = d :: ds := by rw [himpl]; rfl
  have hdrained := drainedIf_quiet (w := w₁.setImpl i (fill (w₁.impls i) chunk)) (i := i) (u := u)
    (by simpa [fill, himpl, SocketImpl.setHandler] using hu) (by rw [← hutp] at halive; exact halive)
  obtain ⟨hle, hcut⟩ := fill_spec chunk hqueue (by rw [hrx]; exact hbufs)
  have htotal : (fillBuffers (w₁.impls i).rxBuffers chunk).2.1 = min d.length chunk.length := by
    rw [hrx, fillBuffers_cons]
  have hfilled : (fill (w₁.impls i) chunk).rxBuffers = Scatter.overwrite d chunk :: ds := by
    simp only [fill, hrx, fillBuffers_cons]
  have hdata : (Scatter.overwrite d chunk :: ds).flatten.take (min d.length chunk.length) = chunk.take d.length := by
    rw [List.flatten_cons, List.take_append_of_le_length (by simp), Scatter.take_overwrite]
  rw [htotal, hfilled, hdata] at hcut
  have hleft : unread (fill (w₁.impls i) chunk).rxBufferQueue = chunk.drop d.length :=
    List.append_cancel_left (hcut.trans (List.take_append_drop _ _).symm)
  obtain ⟨w', hpost, hreads⟩ := postOp_reads (i := i) (s := fill (w₁.impls i) chunk) hposted hrecv
    (List.length_take (l := chunk) (i := d.length))
  rw [hfilled, hleft] at hreads
  refine ⟨w', Except.bind_ok_iff.2 ⟨w₁, hread, ?_⟩, hreads⟩
  simp only [streamStep, onReceive, hrecv, Except.require, hqueue, if_true, Except.ok_bind, hdrained, htotal, hfilled,
    hdata]
  exact hpost

/-! ## The queued path -/

theorem doRead_takes {w : World} (hopen : (w.impls i).closed = false) (hidle : (w.impls i).handlers .recv = none)
    (hqueue : (w.impls i).rxBufferQueue ≠ []) (hbufs : (w.impls i).rxBuffers.flatten ≠ []) (x : Handler) :
    ∃ (w₁ : World) (s : SocketImpl), w₁.posted = w.posted ∧ s.handlers .recv = some { x with after := true } ∧
      s.rxBuffers = Scatter.copy (w.impls i).rxBuffers (unread (w.impls i).rxBufferQueue) ∧
      unread s.rxBufferQueue = (unread (w.impls i).rxBufferQueue).drop
        (Scatter.copied (w.impls i).rxBuffers (unread (w.impls i).rxBufferQueue)) ∧
      w.doRead i x = (w₁.setImpl i s).postOp i .recv .success
        (Scatter.copied (w.impls i).rxBuffers (unread (w.impls i).rxBufferQueue))
        (s.rxBuffers.flatten.take (Scatter.copied (w.impls i).rxBuffers (unread (w.impls i).rxBufferQueue))) := by
  have hlen : (w.impls i).rxBuffers.flatten.length ≠ 0 := fun h0 => hbufs (List.length_eq_zero_iff.1 h0)
  obtain ⟨w₁, hsetup, htr, himpl⟩ := setupOp_transfers (i := i) w .recv x
  obtain ⟨queue, hdrain, hrest⟩ := drain_spec (w.impls i).rxBufferQueue
    (Nat.min_le_right (w.impls i).rxBuffers.flatten.length _)
  rw [← Scatter.copied] at hdrain hrest
  refine ⟨w₁, { w₁.impls i with
    rxBuffers := Scatter.copy (w.impls i).rxBuffers (unread (w.impls i).rxBufferQueue), rxBufferQueue := queue },
    htr.posted.trans (List.append_nil _), by simp [himpl], rfl, hrest, ?_⟩
  unfold doRead
  simp only [Except.require, hidle, hopen, hqueue, hlen, if_true, if_false, Bool.false_eq_true, Except.ok_bind,
    hsetup, hdrain]

theorem queuedRead_reads {w : World} (h : Ready i w) {bufs : List (List UInt8)} (hbufs : bufs.flatten ≠ [])
    (chunk : List UInt8) :
    ∃ w₂, queuedRead i w bufs chunk = .ok w₂ ∧
      Reads i w w₂ (chunk.take bufs.flatten.length) (Scatter.copy bufs chunk) (chunk.drop bufs.flatten.length) := by
  have hreceive : streamStep i w (.receive chunk) =
      .ok (w.setImpl i { w.impls i with rxBufferQueue := [{ data := chunk }] }) := by
    simp only [streamStep, onReceive, h.idle, h.queue, List.nil_append]
    rfl
  have hunread : unread [{ data := chunk }] = chunk := by simp [unread, Buf.unread]
  generalize hw₁ : w.setImpl i { w.impls i with rxBufferQueue := [{ data := chunk }] } = w₁ at hreceive
  have himpl : (w₁.numberOp.setImpl i { w₁.impls i with rxBuffers := bufs }).impls i =
      { w.impls i with rxBufferQueue := [{ data := chunk }], rxBuffers := bufs } := by simp [← hw₁]
  obtain ⟨w₂, s, hposted, hs, hbuffers, hleft, hread⟩ :=
    doRead_takes (i := i) (w := w₁.numberOp.setImpl i { w₁.impls i with rxBuffers := bufs })
    (by rw [himpl]; exact h.opened) (by rw [himpl]; exact h.idle) (by rw [himpl]; simp) (by rw [himpl]; exact hbufs)
    w₁.nextHandler
  rw [himpl] at hbuffers hleft hread
  dsimp only at hbuffers hleft hread
  rw [hunread] at hbuffers hleft hread
  rw [hbuffers, Scatter.take_copy] at hread
  have hposted : w₂.posted = w.posted := hposted.trans (by rw [← hw₁]; rfl)
  obtain ⟨w', hpost, hreads⟩ := postOp_reads (i := i) hposted (by rw [hs, ← hw₁]; rfl)
    (List.length_take (l := chunk) (i := bufs.flatten.length))
  rw [hbuffers, hleft, Scatter.drop_copied] at hreads
  refine ⟨w', Except.bind_ok_iff.2 ⟨w₁, hreceive, ?_⟩, hreads⟩
  rw [streamStep, hread]
  exact hpost

/-! ## The comparison -/

theorem Reads.positive {w w' : World} {data : List UInt8} {bufs : List (List UInt8)} {left : List UInt8}
    (h : Reads i w w' data bufs left) :
    (∀ c ∈ w'.posted.drop w.posted.length, c.ec = .success → 0 < c.size) ↔ data ≠ [] := by
  rw [h.posted, List.drop_left]
  simp [List.length_pos_iff]

theorem Reads.same_iff {w w₁ w₂ : World} {data₁ data₂ left₁ left₂ : List UInt8} {bufs₁ bufs₂ : List (List UInt8)}
    (h₁ : Reads i w w₁ data₁ bufs₁ left₁) (h₂ : Reads i w w₂ data₂ bufs₂ left₂) :
    SameRead i w₁ w₂ ↔ data₁ = data₂ ∧ bufs₁ = bufs₂ ∧ left₁ = left₂ := by
  rw [SameRead, h₁.posted, h₂.posted, h₁.buffers, h₂.buffers, h₁.queued, h₂.queued]
  constructor
  · rintro ⟨hposted, hbufs, hleft⟩
    have hc := List.singleton_inj.1 (List.append_cancel_left hposted)
    exact ⟨congrArg Completion.data hc, hbufs, hleft⟩
  · rintro ⟨rfl, rfl, rfl⟩
    exact ⟨rfl, rfl, rfl⟩

/-- Filling the first buffer is copying to all of them where the others have nothing to take, or no room. -/
theorem overwrite_first_iff {d : List UInt8} {ds : List (List UInt8)} {chunk : List UInt8} :
    (chunk.take d.length = chunk.take (d :: ds).flatten.length ∧
      Scatter.overwrite d chunk :: ds = Scatter.copy (d :: ds) chunk ∧
      chunk.drop d.length = chunk.drop (d :: ds).flatten.length) ↔
      chunk.length ≤ d.length ∨ ds.flatten = [] := by
  rw [List.flatten_cons, List.length_append]
  constructor
  · rintro ⟨-, -, hleft⟩
    by_contra hno
    rw [not_or] at hno
    have hroom : 0 < ds.flatten.length := List.length_pos_iff.2 hno.2
    have := congrArg List.length hleft
    simp only [List.length_drop] at this
    omega
  · rintro (hle | hnone)
    · have hrest : chunk.drop d.length = [] := List.drop_eq_nil_of_le hle
      rw [Scatter.copy, hrest, Scatter.copy_nil, List.take_of_length_le hle,
        List.take_of_length_le (by omega), List.drop_eq_nil_of_le (by omega)]
      exact ⟨rfl, rfl, rfl⟩
    · rw [Scatter.copy, Scatter.copy_of_flatten_eq_nil hnone, hnone]
      exact ⟨rfl, rfl, rfl⟩

/-- **The two paths of a read agree exactly where the chunk fits in the first buffer, or where no other buffer has
room**: they complete with the same size, leave the same bytes in the buffers and the same bytes queued, and the
size is not 0. -/
theorem read_paths_agree_iff {w : World} (h : Ready i w) {bufs : List (List UInt8)} (hbufs : bufs.flatten ≠ [])
    {chunk : List UInt8} (hchunk : chunk ≠ []) :
    (∃ w₁ w₂, directRead i w bufs chunk = .ok w₁ ∧ queuedRead i w bufs chunk = .ok w₂ ∧ SameRead i w₁ w₂ ∧
      (∀ c ∈ w₁.posted.drop w.posted.length, c.ec = .success → 0 < c.size) ∧
      ∀ c ∈ w₂.posted.drop w.posted.length, c.ec = .success → 0 < c.size) ↔
      chunk.length ≤ (bufs.headD []).length ∨ bufs.tail.flatten = [] := by
  cases bufs with
  | nil => exact absurd rfl hbufs
  | cons d ds =>
    obtain ⟨w₁, hdirect, hreads₁⟩ := directRead_reads h hbufs chunk
    obtain ⟨w₂, hqueued, hreads₂⟩ := queuedRead_reads h hbufs chunk
    have htaken : chunk.take (d :: ds).flatten.length ≠ [] := by
      rw [Ne, List.take_eq_nil_iff, not_or, List.length_eq_zero_iff]
      exact ⟨hbufs, hchunk⟩
    rw [List.headD_cons, List.tail_cons, ← overwrite_first_iff, ← hreads₁.same_iff hreads₂]
    constructor
    · rintro ⟨w₁', w₂', hok₁, hok₂, hsame, -, -⟩
      rw [hdirect] at hok₁
      rw [hqueued] at hok₂
      cases hok₁
      cases hok₂
      exact hsame
    · intro hsame
      have heq : chunk.take d.length = chunk.take (d :: ds).flatten.length := ((hreads₁.same_iff hreads₂).1 hsame).1
      exact ⟨w₁, w₂, hdirect, hqueued, hsame, hreads₁.positive.2 (heq ▸ htaken), hreads₂.positive.2 htaken⟩

/-- A connection whose socket is ready, as the user makes one. -/
def readyEvents : List Event :=
  [.socket, .bind 0, .asyncConnect 0 default [] [], .stateChange 0 .connect []]

theorem readyEvents_ready : ∃ w, Run Enabled step {} readyEvents w ∧ Ready 0 w := by
  obtain ⟨w, hrun, hopen, hu, heof, hqueue, hidle⟩ := exists_run Enabled step {} readyEvents
    (fun w => (w.impls 0).closed = false ∧ ((w.impls 0).utpSocket = some 0 ∧ (w.utp 0).alive = true) ∧
      (w.impls 0).gotEof = false ∧ (w.impls 0).rxBufferQueue = [] ∧ (w.impls 0).handlers .recv = none) (by decide)
  exact ⟨w, hrun, hopen, ⟨0, hu⟩, heof, hqueue, hidle⟩

/-- Two bytes for two buffers of two bytes each: both paths fill the first. -/
theorem read_paths_agree_two :
    ∃ w, Run Enabled step {} readyEvents w ∧ Ready 0 w ∧
      ∃ w₁ w₂, directRead 0 w [[0, 0], [0, 0]] [1, 2] = .ok w₁ ∧ queuedRead 0 w [[0, 0], [0, 0]] [1, 2] = .ok w₂ ∧
        SameRead 0 w₁ w₂ := by
  obtain ⟨w, hrun, hready⟩ := readyEvents_ready
  have hroom : [[0, 0], [0, (0 : UInt8)]].flatten ≠ [] := by simp
  have hchunk : [1, (2 : UInt8)] ≠ [] := by simp
  obtain ⟨w₁, w₂, h₁, h₂, hsame, -⟩ := (read_paths_agree_iff hready hroom hchunk).2 (.inl (by simp))
  exact ⟨w, hrun, hready, w₁, w₂, h₁, h₂, hsame⟩

/-- One byte for an empty buffer and one of one byte: the read that waits completes without an error and without
a byte, and the byte is queued; the read that comes later gets it. -/
theorem waiting_read_of_nothing :
    ∃ w w₁ w₂, Run Enabled step {} readyEvents w ∧ Ready 0 w ∧
      directRead 0 w [[], [0]] [7] = .ok w₁ ∧ queuedRead 0 w [[], [0]] [7] = .ok w₂ ∧
      (w₁.posted.drop w.posted.length).map (fun c => (c.ec, c.size)) = [(.success, 0)] ∧
      (w₁.impls 0).rxBuffers = [[], [0]] ∧ unread (w₁.impls 0).rxBufferQueue = [7] ∧
      (w₂.posted.drop w.posted.length).map (fun c => (c.ec, c.size)) = [(.success, 1)] ∧
      (w₂.impls 0).rxBuffers = [[], [7]] ∧ unread (w₂.impls 0).rxBufferQueue = [] := by
  obtain ⟨w, hrun, hready⟩ := readyEvents_ready
  have hroom : [[], [(0 : UInt8)]].flatten ≠ [] := by simp
  obtain ⟨w₁, hdirect, hreads₁⟩ := directRead_reads hready hroom [7]
  obtain ⟨w₂, hqueued, hreads₂⟩ := queuedRead_reads hready hroom [7]
  refine ⟨w, w₁, w₂, hrun, hready, hdirect, hqueued, ?_, hreads₁.buffers, hreads₁.queued, ?_, hreads₂.buffers,
    hreads₂.queued⟩
  · rw [hreads₁.posted, List.drop_left]
    rfl
  · rw [hreads₂.posted, List.drop_left]
    rfl

end World

end AsioUtp
