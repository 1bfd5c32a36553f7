/-
The sending side of a connection over whole runs.

A `socket_impl` is attached to one `utp_socket` in its life, as long as no
operation is started on a closed socket (`Tied`). What libutp has accepted
through it is then a front of what its writes were given; while the socket
is open the rest is in the buffers of the write that waits, and completed
writes have reported exactly the bytes that were accepted up to `_bytes_sent`
(`write_conserved`). The writes go on piece by piece, and sends that fail
close the socket in the middle of them.
-/
import AsioUtp.Stream
import AsioUtp.Closed

namespace AsioUtp

namespace World

open Machine Relation

variable {i : Nat}

/-! ## One `utp_socket` for one `socket_impl` -/

/-- The socket is closed by the move, or was open and stays attached. -/
theorem Move.stays {w w' : World} {l : Label} (hm : Move w l w') (hw : Formed w) (hi : i ∈ w.registeredSockets)
    (hopen : (w'.impls i).closed = false) :
    (w.impls i).closed = false ∧ ∀ u, (w.impls i).utpSocket = some u → (w'.impls i).utpSocket = some u := by
  have hupdate : ∀ {j : Nat} {s : SocketImpl}, w'.impls = Function.update w.impls j s →
      (j = i → s.closed = false → (w.impls i).closed = false ∧
        ∀ u, (w.impls i).utpSocket = some u → s.utpSocket = some u) →
      (w.impls i).closed = false ∧ ∀ u, (w.impls i).utpSocket = some u → (w'.impls i).utpSocket = some u :=
    fun himpl hs => update_rel (fun s s' => s'.closed = false →
      s.closed = false ∧ ∀ u, s.utpSocket = some u → s'.utpSocket = some u) (fun _ hc => ⟨hc, fun _ => id⟩)
      himpl hs hopen
  have hsame : w'.impls = w.impls →
      (w.impls i).closed = false ∧ ∀ u, (w.impls i).utpSocket = some u → (w'.impls i).utpSocket = some u := by
    intro himpl
    rw [himpl] at hopen ⊢
    exact ⟨hopen, fun _ => id⟩
  cases hm with
  | setup | waiting | take | post | eof | decrement =>
    exact hupdate rfl fun h hc => by subst h; exact ⟨hc, fun _ => id⟩
  | data hs | received hs =>
    refine hupdate rfl fun h hc => ?_
    subst h
    exact ⟨hs.closed ▸ hc, fun u hu => hs.utpSocket ▸ hu⟩
  | connect _ hnone _ | accept _ hnone _ _ _ _ _ _ =>
    refine hupdate rfl fun h hc => ?_
    subst h
    exact ⟨hc, fun u hu => by rw [hnone] at hu; cases hu⟩
  | @shut j ec _ _ _ =>
    obtain ⟨utp, heq, -⟩ := shutUtp_eq w j ec
    exact hupdate (by rw [heq]) fun _ hc => by cases hc
  | finish _ hf =>
    obtain ⟨-, c, -, rfl⟩ := finishClose_ok_iff.1 hf
    exact hupdate rfl fun h hc => by subst h; exact ⟨hc, fun _ => id⟩
  | destroy => exact hupdate rfl fun _ hc => by cases hc
  | @bind v _ _ =>
    rcases bind_impls w v with h | h
    · exact hsame h
    · exact hupdate h fun h _ => absurd (h ▸ hi) hw.unregistered
  | @moveConstruct v _ =>
    rcases moveConstruct_impls w v with h | ⟨j, h⟩
    · exact hsame h
    · exact hupdate h fun h hc => by subst h; exact ⟨hc, fun _ => id⟩
  | ran => exact hsame (ran_impls w).1
  | direct | wrote | create | die | number | socket | release | assign | run | loop => exact hsame rfl

/-- The labels that make no `utp_socket` and attach none. -/
def Label.AttachesNothing : Label → Prop
  | .connect _ _ | .create | .accept _ _ => False
  | _ => True

theorem update_utp_field {α : Type} (f : UtpSocket → α) {utp : Nat → UtpSocket} {u : Nat} {s : UtpSocket}
    (h : f s = f (utp u)) (u' : Nat) : f (Function.update utp u s u') = f (utp u') := by
  by_cases hu : u' = u
  · subst hu
    rw [Function.update_self, h]
  · rw [Function.update_of_ne hu]

theorem Move.utp_same {w w' : World} {l : Label} (hm : Move w l w') (hl : l.AttachesNothing) :
    w'.created = w.created ∧ ∀ u, (w'.utp u).userdata = (w.utp u).userdata ∧
      (l ≠ .wrote u → (w'.utp u).written = (w.utp u).written) := by
  cases hm with
  | connect | create | accept => exact hl.elim
  | @shut j ec _ _ _ =>
    obtain ⟨utp, heq, hutp⟩ := shutUtp_eq w j ec
    rw [heq]
    refine ⟨rfl, fun u => ?_⟩
    rcases hutp u with h | ⟨-, h⟩ <;> simp [h]
  | finish _ hf =>
    obtain ⟨-, c, -, rfl⟩ := finishClose_ok_iff.1 hf
    exact ⟨rfl, fun u => ⟨rfl, fun _ => rfl⟩⟩
  | @wrote u' bytes =>
    refine ⟨rfl, fun u => ?_⟩
    by_cases hu : u = u'
    · subst hu
      exact ⟨by simp [setUtp], fun h => absurd rfl h⟩
    · exact ⟨by simp [setUtp, hu], fun _ => by simp [setUtp, hu]⟩
  | destroy | die =>
    exact ⟨rfl, fun u => ⟨update_utp_field UtpSocket.userdata (by rfl) u,
      fun _ => update_utp_field UtpSocket.written (by rfl) u⟩⟩
  | bind =>
    unfold World.bind
    split <;> exact ⟨rfl, fun u => ⟨rfl, fun _ => rfl⟩⟩
  | moveConstruct =>
    unfold World.moveConstruct
    dsimp only
    split <;> exact ⟨rfl, fun u => ⟨rfl, fun _ => rfl⟩⟩
  | ran =>
    obtain ⟨-, hutp, hcreated⟩ := ran_impls w
    rw [hutp, hcreated]
    exact ⟨rfl, fun u => ⟨rfl, fun _ => rfl⟩⟩
  | _ => exact ⟨rfl, fun u => ⟨rfl, fun _ => rfl⟩⟩

/-- A `socket_impl` is attached once: no two `utp_socket`s are its own, and one that is open and not attached has
never been. -/
structure Tied (w : World) : Prop where
  made : ∀ u j, (w.utp u).userdata = some j → u < w.created
  once : ∀ u u' j, (w.utp u).userdata = some j → (w.utp u').userdata = some j → u = u'
  free : ∀ u j, (w.impls j).closed = false → (w.impls j).utpSocket = none → (w.utp u).userdata ≠ some j

theorem tied_init : Tied {} := ⟨by simp, by simp, by simp⟩

/-- Nothing is attached, and sockets stay as they are or are closed. -/
theorem Tied.same {w w' : World} {l : Label} (h : Tied w) (hw : Formed w) (hm : Move w l w')
    (hcreated : w.created ≤ w'.created) (hdata : ∀ u, (w'.utp u).userdata = (w.utp u).userdata) : Tied w' where
  made u j hu := lt_of_lt_of_le (h.made u j (hdata u ▸ hu)) hcreated
  once u u' j hu hu' := h.once u u' j (hdata u ▸ hu) (hdata u' ▸ hu')
  free u j hopen hnone hu := by
    rw [hdata u] at hu
    obtain ⟨hopen₀, hstays⟩ := hm.stays hw (hw.userdata u j hu) hopen
    cases hatt : (w.impls j).utpSocket with
    | none => exact h.free u j hopen₀ hatt hu
    | some u' =>
      rw [hstays u' hatt] at hnone
      cases hnone

/-- A `utp_socket` that was nobody's is attached to a socket that is open and was not attached. -/
theorem Tied.attach {w w' : World} {j u : Nat} {s : SocketImpl} (h : Tied w) (hopen : (w.impls j).closed = false)
    (hnone : (w.impls j).utpSocket = none) (himpl : w'.impls = Function.update w.impls j s)
    (hs : s.utpSocket = some u) (hcreated : w.created ≤ w'.created) (hu : u < w'.created)
    (hself : (w'.utp u).userdata = some j) (hdata : ∀ u' ≠ u, (w'.utp u').userdata = (w.utp u').userdata) :
    Tied w' := by
  have hfree : ∀ u', (w.utp u').userdata ≠ some j := fun u' => h.free u' j hopen hnone
  refine ⟨fun u' j' hu' => ?_, fun a b j' ha hb => ?_, fun u' j' hopen' hnone' hu' => ?_⟩
  · by_cases heq : u' = u
    · exact heq ▸ hu
    · exact lt_of_lt_of_le (h.made u' j' (hdata u' heq ▸ hu')) hcreated
  · by_cases hau : a = u <;> by_cases hbu : b = u
    · rw [hau, hbu]
    · subst hau
      rw [hself] at ha
      cases ha
      exact absurd (hdata b hbu ▸ hb) (hfree b)
    · subst hbu
      rw [hself] at hb
      cases hb
      exact absurd (hdata a hau ▸ ha) (hfree a)
    · exact h.once a b j' (hdata a hau ▸ ha) (hdata b hbu ▸ hb)
  · rw [himpl] at hopen' hnone'
    by_cases hj : j' = j
    · subst hj
      rw [Function.update_self, hs] at hnone'
      cases hnone'
    · rw [Function.update_of_ne hj] at hopen' hnone'
      by_cases heq : u' = u
      · subst heq
        rw [hself] at hu'
        exact hj (Option.some.inj hu').symm
      · exact h.free u' j' hopen' hnone' (hdata u' heq ▸ hu')

theorem tied_move {w w' : World} {l : Label} (hw : Formed w) (hidle : ClosedIdle w) (h : Tied w)
    (hok : StartsOnOpen w l) (hm : Move w l w') : Tied w' := by
  by_cases hl : l.AttachesNothing
  · obtain ⟨hcreated, hutp⟩ := hm.utp_same hl
    exact h.same hw hm hcreated.ge fun u => (hutp u).1
  cases id hm with
  | connect _ hnone _ =>
    exact h.attach hok hnone rfl rfl (Nat.le_succ _) (Nat.lt_succ_self _) (by simp [setUtp, setImpl]) fun u' hu' => by
      simp [setUtp, setImpl, hu']
  | create =>
    refine h.same hw hm (Nat.le_succ _) fun u => ?_
    by_cases hu : u = w.created
    · subst hu
      have hnone : (w.utp w.created).userdata = none := by
        cases hd : (w.utp w.created).userdata with
        | none => rfl
        | some j => exact absurd (h.made _ j hd) (lt_irrefl _)
      simp [hnone]
    · simp [hu]
  | @accept i u rest x _ hnone hx _ hu _ _ _ =>
    have hopen : (w.impls i).closed = false := by
      cases hc : (w.impls i).closed with
      | false => rfl
      | true =>
        rw [hidle i hc] at hx
        cases hx
    exact h.attach hopen hnone rfl rfl le_rfl hu (by simp [post, setUtp, setImpl]) fun u' hu' => by
      simp [post, setUtp, setImpl, hu']
  | _ => exact absurd trivial hl

/-! ## What paths leave alone -/

theorem Move.created_le {w w' : World} {l : Label} (hm : Move w l w') : w.created ≤ w'.created := by
  by_cases hl : l.AttachesNothing
  · exact (hm.utp_same hl).1.ge
  cases hm with
  | connect | create => exact Nat.le_succ _
  | accept => exact le_rfl
  | _ => exact absurd trivial hl

/-- What is attached stays attached to the same socket. -/
theorem Move.persists {w w' : World} {l : Label} {u j : Nat} (hm : Move w l w') (hmade : u < w.created)
    (hu : (w.utp u).userdata = some j) : u < w'.created ∧ (w'.utp u).userdata = some j := by
  by_cases hl : l.AttachesNothing
  · obtain ⟨hcreated, hutp⟩ := hm.utp_same hl
    exact ⟨hcreated ▸ hmade, (hutp u).1.trans hu⟩
  have hne : u ≠ w.created := by omega
  cases hm with
  | connect => exact ⟨Nat.lt_succ_of_lt hmade, by simpa [setUtp, setImpl, hne] using hu⟩
  | create => exact ⟨Nat.lt_succ_of_lt hmade, by simpa [setUtp, hne] using hu⟩
  | @accept i u' rest x _ _ _ _ _ hnone _ _ =>
    have hne' : u ≠ u' := by
      rintro rfl
      rw [hnone] at hu
      cases hu
    exact ⟨hmade, by simpa [World.post, setUtp, setImpl, hne'] using hu⟩
  | _ => exact absurd trivial hl

/-- Only `utp_write` changes what has been written; a new `utp_socket` has nothing written. -/
theorem Move.written {w w' : World} {l : Label} {u : Nat} (hm : Move w l w') (hl : l ≠ .wrote u) :
    (w'.utp u).written = (w.utp u).written ∨ u = w.created ∧ (w'.utp u).written = [] := by
  by_cases hatt : l.AttachesNothing
  · exact .inl (((hm.utp_same hatt).2 u).2 hl)
  cases hm with
  | connect | create =>
    by_cases hu : u = w.created
    · exact .inr ⟨hu, by simp [setUtp, setImpl, hu]⟩
    · exact .inl (by simp [setUtp, setImpl, hu])
  | accept => exact .inl (update_utp_field UtpSocket.written (by rfl) u)
  | _ => exact absurd trivial hatt

/-- No write is started by a move that gives no write its slot. -/
theorem Move.idle {w w' : World} {l : Label} (hm : Move w l w') (hl : ∀ x, l ≠ .setup i .send x)
    (h : (w.impls i).handlers .send = none) : (w'.impls i).handlers .send = none := by
  have hupdate : ∀ {j : Nat} {s : SocketImpl}, w'.impls = Function.update w.impls j s →
      (j = i → s.handlers .send = none) → (w'.impls i).handlers .send = none := fun himpl hs =>
    update_rel (fun s s' => s.handlers .send = none → s'.handlers .send = none) (fun _ => id) himpl
      (fun hji _ => hs hji) h
  cases hm with
  | @setup j slot x _ _ _ _ _ _ =>
    refine hupdate rfl fun hji => ?_
    subst hji
    have hslot : slot ≠ .send := fun hslot => hl x (by rw [hslot])
    simp [hslot.symm, h]
  | connect | waiting | accept =>
    refine hupdate rfl fun hji => ?_
    subst hji
    simp [h]
  | take | destroy => exact hupdate rfl fun _ => by simp
  | @post j slot x ec size data _ _ =>
    refine hupdate rfl fun hji => ?_
    subst hji
    by_cases hslot : slot = .send
    · simp [hslot]
    · simp [Ne.symm hslot, h]
  | @shut j ec _ _ _ =>
    obtain ⟨utp, heq, -⟩ := shutUtp_eq w j ec
    exact hupdate (by rw [heq]) fun _ => rfl
  | finish _ hf =>
    obtain ⟨-, c, -, rfl⟩ := finishClose_ok_iff.1 hf
    exact hupdate rfl fun hji => by subst hji; exact h
  | data hs | received hs =>
    refine hupdate rfl fun hji => ?_
    subst hji
    rw [hs.handlers]
    exact h
  | eof | decrement => exact hupdate rfl fun hji => by subst hji; exact h
  | @bind v _ _ =>
    rcases bind_impls w v with himpl | himpl
    · rwa [himpl]
    · exact hupdate himpl fun _ => rfl
  | @moveConstruct v _ =>
    rcases moveConstruct_impls w v with himpl | ⟨j, himpl⟩
    · rwa [himpl]
    · exact hupdate himpl fun hji => by subst hji; exact h
  | ran => rwa [(ran_impls w).1]
  | direct | wrote | create | die | number | socket | release | assign | run | loop => exact h

variable {ok : Label → Prop}

theorem Path.stays {w w' : World} (h : Path ok w w') (hw : Formed w) (hi : i ∈ w.registeredSockets)
    (hopen : (w'.impls i).closed = false) :
    (w.impls i).closed = false ∧ ∀ u, (w.impls i).utpSocket = some u → (w'.impls i).utpSocket = some u := by
  induction h using ReflTransGen.head_induction_on with
  | refl => exact ⟨hopen, fun _ => id⟩
  | head hm _ ih =>
    obtain ⟨l, -, hm⟩ := hm
    obtain ⟨hopen₁, hstays⟩ := ih (formed_move hw hm) (hm.registered_subset hi)
    obtain ⟨hopen₀, hstays₀⟩ := hm.stays hw hi hopen₁
    exact ⟨hopen₀, fun u hu => hstays u (hstays₀ u hu)⟩

theorem Path.persists {w w' : World} {u j : Nat} (h : Path ok w w') (hmade : u < w.created)
    (hu : (w.utp u).userdata = some j) : u < w'.created ∧ (w'.utp u).userdata = some j := by
  induction h with
  | refl => exact ⟨hmade, hu⟩
  | tail _ hm ih =>
    obtain ⟨l, -, hm⟩ := hm
    exact hm.persists ih.1 ih.2

theorem Path.created_le {w w' : World} (h : Path ok w w') : w.created ≤ w'.created := by
  induction h with
  | refl => exact le_rfl
  | tail _ hm ih =>
    obtain ⟨l, -, hm⟩ := hm
    exact ih.trans hm.created_le

theorem Path.written {w w' : World} {u : Nat} (h : Path ok w w') (hok : ¬ ok (.wrote u)) :
    (w'.utp u).written = (w.utp u).written ∨ w.created ≤ u ∧ (w'.utp u).written = [] := by
  induction h with
  | refl => exact .inl rfl
  | @tail s s' hpath hm ih =>
    obtain ⟨l, hl, hm⟩ := hm
    have hle := Path.created_le hpath
    rcases hm.written (u := u) (by rintro rfl; exact hok hl) with hsame | ⟨rfl, hnil⟩
    · rwa [hsame]
    · exact .inr ⟨hle, hnil⟩

theorem Path.idle {w w' : World} (h : Path ok w w') (hok : ∀ x, ¬ ok (.setup i .send x))
    (hidle : (w.impls i).handlers .send = none) : (w'.impls i).handlers .send = none := by
  induction h with
  | refl => exact hidle
  | tail _ hm ih =>
    obtain ⟨l, hl, hm⟩ := hm
    exact hm.idle (by rintro x rfl; exact hok x hl) ih

/-! ## What `do_write` sends -/

theorem reportedIn_append (cs cs' : List Completion) :
    reportedIn i (cs ++ cs') = reportedIn i cs + reportedIn i cs' := by
  simp [reportedIn]

theorem reportedIn_eq_zero {cs : List Completion} (h : ∀ c ∈ cs, c.WriteOf i → c.size = 0) :
    reportedIn i cs = 0 := by
  induction cs with
  | nil => rfl
  | cons c cs ih =>
    have hc : (if c.WriteOf i then c.size else 0) = 0 := by
      split
      · next hw => exact h c (by simp) hw
      · rfl
    have hcs := ih fun d hd => h d (by simp [hd])
    simp only [reportedIn, List.map_cons, List.sum_cons] at hcs ⊢
    omega

theorem Silent.reported {cs : List Completion} (h : Silent cs) : reportedIn i cs = 0 :=
  reportedIn_eq_zero fun c hc _ => (h c hc).1

/-- Closing sockets leaves what has been sent alone. -/
theorem Path.written_closing {w w' : World} (h : Path Label.Closing w w') (u : Nat) :
    (w'.utp u).written = (w.utp u).written := by
  induction h with
  | refl => rfl
  | @tail s s' _ hm ih =>
    obtain ⟨l, hl, hm⟩ := hm
    have hwritten := ((hm.utp_same (by cases l <;> first | exact hl.elim | trivial)).2 u).2
      (by rintro rfl; exact hl)
    exact hwritten.trans ih

/-- The calls of `utp_write`, also where their sends close sockets. -/
theorem writeCalls_sent {u : Nat} {calls : List (List UInt8 × WriteReply)} {w w' : World}
    (h : calls.foldlM (writeCall i u) w = .ok w') :
    (w'.utp u).written = (w.utp u).written ++ acceptedBytes calls ∧
      ∃ cs, w'.posted = w.posted ++ cs ∧ Silent cs := by
  induction calls generalizing w with
  | nil =>
    cases h
    exact ⟨(List.append_nil _).symm, [], (List.append_nil _).symm, by simp [Silent]⟩
  | cons c calls ih =>
    simp only [List.foldlM_cons, writeCall, utpWrite, Except.bind_ok_iff, Except.pure_ok_iff] at h
    obtain ⟨w₂, ⟨w₃, ⟨-, -, w₁, hsends, rfl⟩, rfl⟩, h⟩ := h
    have hpath : Path Label.Closing w w₁ := sends_path (fun _ => id) hsends
    obtain ⟨cs, hcs, hsilent⟩ := hpath.silent
    obtain ⟨hwritten, cs', hcs', hsilent'⟩ := ih h
    refine ⟨?_, cs ++ cs', ?_, fun d hd => (List.mem_append.1 hd).elim (hsilent d) (hsilent' d)⟩
    · rw [hwritten]
      simp [setImpl, setUtp, hpath.written_closing, acceptedBytes]
    · rw [hcs', ← List.append_assoc, ← hcs]
      rfl

/-- How `do_write` leaves a write of what is in the buffers: `front` has been accepted and `left` has not. The write
is completed, or it waits; but its socket may have been closed meanwhile. -/
structure Forwards (i u : Nat) (front left : List UInt8) (w w' : World) : Prop where
  cut : (w.impls i).txBuffers.flatten = front ++ left
  written : (w'.utp u).written = (w.utp u).written ++ front
  outcome : left = [] ∧ (w'.impls i).handlers .send = none ∧ (w'.impls i).bytesSent = 0 ∧
      reportedIn i (newly w w') = (w.impls i).bytesSent + front.length ∨
    reportedIn i (newly w w') = 0 ∧ (w'.impls i).bytesSent = (w.impls i).bytesSent + front.length ∧
      ((w'.impls i).closed = false → w'.Pending i .send ∧ (w'.impls i).txBuffers.flatten = left)

theorem doWrite_sends {w w' : World} {u : Nat} {x : Handler} {rs : List WriteReply}
    (hu : (w.impls i).utpSocket = some u) (hfit : Fit (writeCalls (w.impls i).txBuffers rs).1)
    (h : w.doWrite i x rs = .ok w') : ∃ front left, Forwards i u front left w w' := by
  have hidle : (w.impls i).handlers .send = none := by
    unfold doWrite at h
    simp only [Except.bind_ok_iff, Except.require_ok_iff] at h
    exact h.choose_spec.1
  obtain ⟨w₁, hsetup⟩ := setupOp_ok w i .send x
  obtain ⟨himpl, hutp, -⟩ := setupOp_impl hsetup
  have hposted : w₁.posted = w.posted := by
    simp only [setupOp, Except.bind_ok_iff, Except.pure_ok_iff] at hsetup
    obtain ⟨c, -, rfl⟩ := hsetup
    rfl
  rw [doWrite_eq hidle hu hsetup, Except.bind_ok_iff] at h
  obtain ⟨w₂, hcalls, hend⟩ := h
  obtain ⟨hwritten, cs, hcs, hsilent⟩ := writeCalls_sent hcalls
  have hsent := writeCalls_count hcalls
  have hshuts := (writeCalls_shuts hcalls).1.impl i
  obtain ⟨hcut, hdone⟩ := writeCalls_spec (w.impls i).txBuffers rs
  have hcount := hfit.count
  rw [hutp] at hwritten
  have hbytes : (w₁.impls i).bytesSent = (w.impls i).bytesSent := by
    rw [himpl, Function.update_self]
    rfl
  rw [hbytes, hcount] at hsent
  rw [hposted] at hcs
  generalize writeCalls (w.impls i).txBuffers rs = r at hcut hdone hwritten hsent hend
  obtain ⟨calls, left, still⟩ := r
  dsimp only at hcut hdone hwritten hsent hend
  refine ⟨acceptedBytes calls, left.flatten, ?_⟩
  unfold endWrite at hend
  dsimp only at hend
  cases still with
  | false =>
    -- Something is left: the handler waits, unless the socket was closed.
    simp only [Bool.false_eq_true, if_false, Except.pure_ok_iff] at hend
    subst hend
    refine ⟨hcut.symm, hwritten, .inr ⟨?_, by simpa [setImpl] using hsent, fun hopen => ?_⟩⟩
    · rw [show newly w (w₂.setImpl i _) = cs from newly_of_append hcs, hsilent.reported]
    · rcases hshuts with hsame | hshut
      · have hslot : (w₂.impls i).handlers .send = some { x with after := true } := by
          rw [hsame.handlers, himpl]
          simp
        simp [Pending, setImpl, hslot]
      · rw [setImpl_impls, Function.update_self, hshut.shut.1] at hopen
        cases hopen
  | true =>
    have hleft : left.flatten = [] := hdone.1 rfl
    simp only [if_true, Except.bind_ok_iff, Except.pure_ok_iff] at hend
    obtain ⟨w₃, hpost, rfl⟩ := hend
    obtain ⟨y, -, rfl⟩ := postOp_ok hpost
    have hnew : ∀ c s s', newly w ((((w₂.setImpl i s).setImpl i s').post c).setImpl i
        { (((w₂.setImpl i s).setImpl i s').post c).impls i with bytesSent := 0 }) = cs ++ [c] := fun c s s' =>
      newly_of_append (by rw [← List.append_assoc]; exact congrArg (· ++ [c]) hcs)
    refine ⟨hcut.symm, hwritten, .inl ⟨hleft, ?_, ?_, ?_⟩⟩
    · simp [setImpl, post]
    · simp [setImpl]
    · rw [hnew, reportedIn_append, hsilent.reported]
      simp [reportedIn, Completion.WriteOf, setImpl, hsent]

/-! ## Events -/

/-- Only a write on the socket a `utp_socket` is attached to writes through it. -/
theorem permits_wrote {w : World} {ev : Event} {u : Nat} (hw : Handles w) (h : w.Permits ev (.wrote u)) :
    ∃ j, (w.utp u).userdata = some j ∧ w.WritesOn j ev := by
  cases ev with
  | asyncWriteSome v bufs rs =>
    simp only [Permits, Label.Refuses, Label.Closing, Label.WritesTo, reduceCtorEq, false_or] at h
    obtain ⟨j, hj, hu⟩ := h
    exact ⟨j, (hw.attached j u hu).2.2, hj⟩
  | stateChange u' state rs =>
    cases state with
    | writable =>
      simp only [Permits, Label.Closing, Label.WritesTo, reduceCtorEq, and_false, exists_false, false_or,
        Option.some.injEq] at h
      obtain ⟨j, hj, rfl⟩ := h
      exact ⟨j, hj, hj, rfl⟩
    | _ => simp [Permits] at h
  | _ => simp [Permits, Label.Closing, Label.Refuses, Label.ReadsOn] at h

theorem permits_setup {w : World} {ev : Event} {x : Handler} (h : w.Permits ev (.setup i .send x)) :
    w.WritesOn i ev := by
  cases ev with
  | asyncWriteSome v bufs rs =>
    simp only [Permits, Label.Refuses, Label.Closing, Label.WritesTo, reduceCtorEq, false_or, or_false,
      Label.setup.injEq] at h
    obtain ⟨j, hj, rfl, -⟩ := h
    exact hj
  | stateChange u' state rs =>
    cases state with
    | writable =>
      simp only [Permits, Label.Closing, Label.WritesTo, reduceCtorEq, false_or, or_false, Label.setup.injEq] at h
      obtain ⟨j, hj, y, -, rfl, -⟩ := h
      exact ⟨hj, rfl⟩
    | _ => simp [Permits] at h
  | _ => simp [Permits, Label.Closing, Label.Refuses, Label.ReadsOn] at h

/-- Only writes on `i` report bytes as written on it. -/
theorem Cause.size {w : World} {ev : Event} {c : Completion} (h : Cause w ev c) (hev : ¬ w.WritesOn i ev)
    (hc : c.WriteOf i) : c.size = 0 := by
  obtain ⟨hi, hslot, -⟩ := hc
  cases h with
  | written hj _ =>
    cases hi
    exact absurd hj hev
  | resumed hj _ =>
    cases hi
    exact absurd ⟨hj, rfl⟩ hev
  | read | received => cases hslot
  | _ => rfl

/-- libutp accepts no more of a write than it is offered. -/
def Fits (w : World) : Event → Prop
  | .asyncWriteSome _ bufs rs => Fit (writeCalls bufs rs).1
  | .stateChange u state rs =>
    state = .writable → ∀ j ∈ (w.utp u).userdata, Fit (writeCalls (w.impls j).txBuffers rs).1
  | _ => True

instance (w : World) : (ev : Event) → Decidable (w.Fits ev)
  | .asyncWriteSome _ bufs rs => inferInstanceAs (Decidable (∀ c ∈ (writeCalls bufs rs).1, _))
  | .stateChange u state rs =>
    inferInstanceAs (Decidable (state = .writable → ∀ j ∈ (w.utp u).userdata,
      ∀ c ∈ (writeCalls (w.impls j).txBuffers rs).1, c.2.accepted ≤ c.1.length))
  | .socket | .bind _ | .moveConstruct _ | .moveAssign _ _ | .close _ | .asyncConnect _ _ _ _ | .asyncAccept _
  | .asyncReadSome _ _ | .sendto _ | .onRead _ _ _ | .incoming _ _ _ | .run _ | .ran | .context _ =>
    inferInstanceAs (Decidable True)

/-- What can happen where no connect, accept or write is started on a closed socket, and `utp_write` keeps to its
part. -/
def Proper (w : World) (ev : Event) : Prop := w.Enabled ev ∧ w.StartsOpen ev ∧ w.Fits ev

instance (w : World) (ev : Event) : Decidable (w.Proper ev) := inferInstanceAs (Decidable (_ ∧ _ ∧ _))

/-- What such runs keep. -/
structure Orderly (w : World) : Prop where
  regular : Regular w
  reading : Reading w
  idle : ClosedIdle w
  tied : Tied w
  unsent : ∀ i, UnsentAt i w
  unwritten : ∀ u, (w.utp u).userdata = none → (w.utp u).written = []

theorem orderly_init : Orderly {} :=
  ⟨reachable_regular .init, reachable_reading .init, fun _ _ _ => rfl, tied_init, fun _ _ _ => rfl, fun _ _ => rfl⟩

theorem Orderly.step {w w' : World} {ev : Event} (h : Orderly w) (hen : w.Proper ev) (hs : w.step ev = .ok w') :
    Orderly w' := by
  obtain ⟨hen, hopen, -⟩ := hen
  have hpath := step_path h.regular.sound hen hs
  have htr := hopen.traces h.regular.sound h.idle hen
  rw [hs] at htr
  obtain ⟨-, hidle, htied⟩ := htr.keeps (fun s => Formed s ∧ ClosedIdle s ∧ Tied s)
    (by
      rintro s s' ⟨hf, hi, ht⟩ hmove
      obtain ⟨l, hl, hm⟩ := id hmove
      exact ⟨formed_move hf hm, closedIdle_moves hi hmove, tied_move hf hi ht hl hm⟩)
    ⟨h.regular.sound.formed, h.idle, h.tied⟩
  refine ⟨hpath.regular h.regular, reading_step h.regular.sound h.reading hen hs, hidle, htied,
    fun i => unsentAt_step h.regular.sound (h.unsent i) hen hs, fun u hu => ?_⟩
  have hu₀ : (w.utp u).userdata = none := by
    cases hd : (w.utp u).userdata with
    | none => rfl
    | some j =>
      rw [(hpath.persists (h.tied.made u j hd) hd).2] at hu
      cases hu
  rcases hpath.written (u := u) (fun hok => by
    obtain ⟨j, hj, -⟩ := permits_wrote h.regular.sound.handles hok
    rw [hu₀] at hj
    cases hj) with hsame | ⟨-, hnil⟩
  · rw [hsame, h.unwritten u hu₀]
  · exact hnil

/-- The `utp_socket` of an open socket is attached to it. -/
theorem Orderly.attached {w : World} {u : Nat} (h : Orderly w) (hopen : (w.impls i).closed = false)
    (hu : (w.utp u).userdata = some i) : (w.impls i).utpSocket = some u := by
  cases ha : (w.impls i).utpSocket with
  | none => exact absurd hu (h.tied.free u i hopen ha)
  | some u' => rw [h.tied.once u' u i (h.regular.sound.handles.attached i u' ha).2.2 hu]

/-- What the write that waits on `i` has left. -/
def unsent (i : Nat) (w : World) : List UInt8 := if w.Pending i .send then (w.impls i).txBuffers.flatten else []

/-- How the sending side of `i` stands. -/
structure Sending (i : Nat) (w : World) (h : Traffic) : Prop where
  unattached : (∀ u, (w.utp u).userdata ≠ some i) →
    h.given = [] ∧ h.reported = 0 ∧ (w.impls i).handlers .send = none
  stands : ∀ u, (w.utp u).userdata = some i → ∃ rest, (w.utp u).written ++ rest = h.given ∧
    h.reported ≤ (w.utp u).written.length ∧
    ((w.impls i).closed = false →
      rest = w.unsent i ∧ h.reported + (w.impls i).bytesSent = (w.utp u).written.length)

theorem sending_init (i : Nat) : Sending i {} {} := ⟨fun _ => ⟨rfl, rfl, rfl⟩, by simp⟩

/-- `do_write` on a socket where everything given is written or in the buffers. -/
theorem Forwards.sending {w₀ w' : World} {u : Nat} {front left : List UInt8} {h h' : Traffic}
    (hf : Forwards i u front left w₀ w') (hu : (w'.utp u).userdata = some i)
    (honce : ∀ u', (w'.utp u').userdata = some i → u' = u)
    (hgiven : (w₀.utp u).written ++ (w₀.impls i).txBuffers.flatten = h'.given)
    (hreported : h.reported + (w₀.impls i).bytesSent = (w₀.utp u).written.length)
    (hnew : h'.reported = h.reported + reportedIn i (newly w₀ w')) : Sending i w' h' := by
  refine ⟨fun hnone => absurd hu (hnone u), fun u' hu' => ?_⟩
  rw [honce u' hu']
  have hlen : (w'.utp u).written.length = (w₀.utp u).written.length + front.length := by
    rw [hf.written, List.length_append]
  refine ⟨left, by rw [hf.written, List.append_assoc, ← hf.cut, hgiven], ?_, fun hopen => ?_⟩
  · rcases hf.outcome with ⟨-, -, -, hrep⟩ | ⟨hrep, -, -⟩ <;> omega
  · rcases hf.outcome with ⟨hleft, hslot, hsent, hrep⟩ | ⟨hrep, hsent, hwaits⟩
    · refine ⟨?_, by omega⟩
      rw [hleft, unsent, if_neg (by rw [Pending, hslot]; simp)]
    · obtain ⟨hpending, hbufs⟩ := hwaits hopen
      refine ⟨?_, by omega⟩
      rw [unsent, if_pos hpending, hbufs]

/-- An event that does not write on `i`. -/
theorem Sending.spared {w w' : World} {t : Traffic} {ev : Event} (h : Sending i w t) (hw : Orderly w)
    (hw' : Orderly w') (hen : w.Enabled ev) (hs : w.step ev = .ok w') (hev : ¬ w.WritesOn i ev) :
    Sending i w' (note i w ev w' t) := by
  have hpath := step_path hw.regular.sound hen hs
  have hgiven : (note i w ev w' t).given = t.given := by
    have hnone : w.givenBy i ev = [] := by
      cases ev with
      | asyncWriteSome v bufs rs => exact if_neg fun h => hev h.1
      | _ => rfl
    show t.given ++ w.givenBy i ev = t.given
    rw [hnone, List.append_nil]
  have hreported : (note i w ev w' t).reported = t.reported := by
    show t.reported + reportedIn i (newly w w') = t.reported
    rcases step_posts hw.regular hw.reading hen hs with ⟨c, rfl, rfl⟩ | ⟨cs, hcs, hall⟩
    · rw [newly_run]
      rfl
    · rw [newly_of_append hcs, reportedIn_eq_zero fun c hc => (hall c hc).size hev, Nat.add_zero]
  by_cases hatt : ∃ u, (w.utp u).userdata = some i
  · obtain ⟨u, hu⟩ := hatt
    have hmade := hw.tied.made u i hu
    have hu' := (hpath.persists hmade hu).2
    obtain ⟨rest, hrest, hle, hstands⟩ := h.stands u hu
    have hwritten : (w'.utp u).written = (w.utp u).written := by
      rcases hpath.written (u := u) (fun hok => by
        obtain ⟨j, hj, hwrites⟩ := permits_wrote hw.regular.sound.handles hok
        rw [hu] at hj
        cases hj
        exact hev hwrites) with hsame | ⟨hnew, -⟩
      · exact hsame
      · omega
    refine ⟨fun hnone => absurd hu' (hnone u), fun u₁ hu₁ => ?_⟩
    rw [hw'.tied.once u₁ u i hu₁ hu', hwritten, hgiven, hreported]
    refine ⟨rest, hrest, hle, fun hopen => ?_⟩
    obtain ⟨hopen₀, -⟩ := hpath.stays hw.regular.sound.formed (hw.regular.sound.formed.userdata u i hu) hopen
    rcases spared_step hw.regular.sound (hw.attached hopen₀ hu) hen hev hs with hclosed | hsp
    · rw [hclosed] at hopen
      cases hopen
    · obtain ⟨hunsent, hcount⟩ := hstands hopen₀
      refine ⟨?_, by rw [hsp.bytesSent, hcount]⟩
      have hp : w'.Pending i .send ↔ w.Pending i .send := by
        unfold Pending
        rw [hsp.handler]
      simp only [hunsent, unsent, hp, hsp.txBuffers]
  · -- A socket that is attached now has had nothing to do with writes.
    have hnone : ∀ u, (w.utp u).userdata ≠ some i := fun u hu => hatt ⟨u, hu⟩
    obtain ⟨hg, hr, hidle⟩ := h.unattached hnone
    have hidle' : (w'.impls i).handlers .send = none := hpath.idle (fun x hok => hev (permits_setup hok)) hidle
    refine ⟨fun _ => ⟨hgiven.trans hg, hreported.trans hr, hidle'⟩, fun u hu => ?_⟩
    have hu₀ : (w.utp u).userdata = none := by
      cases hd : (w.utp u).userdata with
      | none => rfl
      | some j =>
        rw [(hpath.persists (hw.tied.made u j hd) hd).2] at hu
        cases hu
        exact absurd hd (hnone u)
    have hnil : (w'.utp u).written = [] := by
      rcases hpath.written (u := u) (fun hok => by
        obtain ⟨j, hj, -⟩ := permits_wrote hw.regular.sound.handles hok
        rw [hu₀] at hj
        cases hj) with hsame | ⟨-, hnil⟩
      · rw [hsame, hw.unwritten u hu₀]
      · exact hnil
    rw [hnil, hgiven, hreported, hg, hr]
    refine ⟨[], rfl, le_rfl, fun hopen => ⟨?_, ?_⟩⟩
    · rw [unsent, if_neg (by rw [Pending, hidle']; simp)]
    · rw [hw'.unsent i hopen hidle']
      rfl

/-- `async_write_some` on `i`. -/
theorem Sending.write {w w' : World} {t : Traffic} {v : Nat} {bufs : List (List UInt8)} {rs : List WriteReply}
    (h : Sending i w t) (hw : Orderly w) (hw' : Orderly w') (hen : w.Proper (.asyncWriteSome v bufs rs))
    (hv : (w.sockets v).impl = some i) (hs : w.step (.asyncWriteSome v bufs rs) = .ok w') :
    Sending i w' (note i w (.asyncWriteSome v bufs rs) w' t) := by
  obtain ⟨hen, hopen, hfit⟩ := hen
  have hfit : Fit (writeCalls bufs rs).1 := hfit
  have hopen : (w.impls i).closed = false := hopen i hv
  have hidle : (w.impls i).handlers .send = none := not_not.1 (hen.2 i hv)
  have hpath := step_path hw.regular.sound hen hs
  cases hu : (w.impls i).utpSocket with
  | none =>
    have hnone : ∀ u, (w.utp u).userdata ≠ some i := fun u => hw.tied.free u i hopen hu
    obtain ⟨hg, hr, -⟩ := h.unattached hnone
    have hby : w.givenBy i (.asyncWriteSome v bufs rs) = [] := if_neg fun h => h.2 hu
    -- The write is refused, and nothing is attached.
    rw [step_asyncWriteSome hv] at hs
    rw [doWrite_detached (by simpa using hidle) (by simpa using hu)] at hs
    cases hs
    refine ⟨fun _ => ⟨?_, ?_, by simpa [post, setImpl] using hidle⟩, fun u hdata => absurd hdata (hnone u)⟩
    · show t.given ++ w.givenBy i (.asyncWriteSome v bufs rs) = []
      rw [hg, hby, List.append_nil]
    · show t.reported + reportedIn i (newly w _) = 0
      rw [hr, newly_of_append rfl]
      simp [reportedIn, Completion.WriteOf]
  | some u =>
    have hdata := (hw.regular.sound.handles.attached i u hu).2.2
    have hdata' := (hpath.persists (hw.tied.made u i hdata) hdata).2
    obtain ⟨rest, hrest, -, hstands⟩ := h.stands u hdata
    obtain ⟨hunsent, hcount⟩ := hstands hopen
    rw [unsent, if_neg (by rw [Pending, hidle]; simp)] at hunsent
    subst hunsent
    rw [step_asyncWriteSome hv] at hs
    obtain ⟨front, left, hf⟩ := doWrite_sends (u := u) (by simpa using hu) (by simpa using hfit) hs
    refine hf.sending (h := t) hdata' (fun u' hu' => hw'.tied.once u' u i hu' hdata') ?_ ?_ rfl
    · have hby : w.givenBy i (.asyncWriteSome v bufs rs) = bufs.flatten := if_pos ⟨hv, by rw [hu]; simp⟩
      show _ = t.given ++ w.givenBy i (.asyncWriteSome v bufs rs)
      rw [hby, ← hrest]
      simp [setImpl, numberOp]
    · simpa [setImpl, numberOp] using hcount

/-- `on_writable` on `i`. -/
theorem Sending.resume {w w' : World} {t : Traffic} {u : Nat} {rs : List WriteReply} (h : Sending i w t)
    (hw : Orderly w) (hw' : Orderly w') (hen : w.Proper (.stateChange u .writable rs))
    (hu : (w.utp u).userdata = some i) (hs : w.step (.stateChange u .writable rs) = .ok w') :
    Sending i w' (note i w (.stateChange u .writable rs) w' t) := by
  obtain ⟨hen, -, hfit⟩ := hen
  have hatt := hw.regular.sound.handles.back u i hen.2 hu
  have hdata' := ((step_path hw.regular.sound hen hs).persists (hw.tied.made u i hu) hu).2
  have hsame : (note i w (.stateChange u .writable rs) w' t).given = t.given := List.append_nil _
  rw [step_writable hu, onWritable] at hs
  cases hx : (w.impls i).handlers .send with
  | none =>
    rw [hx] at hs
    cases hs
    have hnote : note i w (.stateChange u .writable rs) w t = t := by
      simp [note, givenBy, arrivedBy, newly, reportedIn, handed]
    rwa [hnote]
  | some x =>
    rw [hx] at hs
    -- A write that waits is on an open socket.
    have hopen : (w.impls i).closed = false := by
      cases hc : (w.impls i).closed with
      | false => rfl
      | true =>
        rw [hw.idle i hc] at hx
        cases hx
    obtain ⟨rest, hrest, -, hstands⟩ := h.stands u hu
    obtain ⟨hunsent, hcount⟩ := hstands hopen
    rw [unsent, if_pos (by rw [Pending, hx]; simp)] at hunsent
    subst hunsent
    obtain ⟨front, left, hf⟩ := doWrite_sends (u := u) (by simpa [SocketImpl.setHandler] using hatt)
      (by simpa [SocketImpl.setHandler] using hfit rfl i hu) hs
    refine hf.sending (h := t) hdata' (fun u' hu' => hw'.tied.once u' u i hu' hdata') ?_ ?_ rfl
    · rw [hsame, ← hrest]
      simp [setImpl, SocketImpl.setHandler]
    · simpa [setImpl, SocketImpl.setHandler] using hcount

theorem Sending.step {w w' : World} {t : Traffic} {ev : Event} (h : Sending i w t) (hw : Orderly w)
    (hen : w.Proper ev) (hs : w.step ev = .ok w') : Sending i w' (note i w ev w' t) := by
  have hw' := hw.step hen hs
  by_cases hev : w.WritesOn i ev
  · cases ev with
    | asyncWriteSome v bufs rs => exact h.write hw hw' hen hev hs
    | stateChange u state rs =>
      obtain ⟨hu, rfl⟩ := hev
      exact h.resume hw hw' hen hu hs
    | _ => exact hev.elim
  · exact h.spared hw hw' hen.1 hs hev

/-- What has been written through a `utp_socket` stays, and is only added to. -/
theorem Orderly.written {w w' : World} {ev : Event} (h : Orderly w) (hen : w.Proper ev) (hs : w.step ev = .ok w')
    (u : Nat) : (w.utp u).written <+: (w'.utp u).written := by
  by_cases hok : w.Permits ev (.wrote u)
  · obtain ⟨i, hu, hwrites⟩ := permits_wrote h.regular.sound.handles hok
    obtain ⟨hen, hopen, hfit⟩ := hen
    cases ev with
    | asyncWriteSome v bufs rs =>
      have hfit : Fit (writeCalls bufs rs).1 := hfit
      have hatt := h.attached (hopen i hwrites) hu
      rw [step_asyncWriteSome hwrites] at hs
      obtain ⟨front, left, hf⟩ := doWrite_sends (u := u) (by simpa using hatt) (by simpa using hfit) hs
      exact ⟨front, hf.written.symm⟩
    | stateChange u₁ state rs =>
      obtain ⟨hu₁, rfl⟩ := hwrites
      rw [h.tied.once u₁ u i hu₁ hu] at hs hen hfit
      have hatt := h.regular.sound.handles.back u i hen.2 hu
      rw [step_writable hu, onWritable] at hs
      cases hx : (w.impls i).handlers .send with
      | none =>
        rw [hx] at hs
        cases hs
        exact List.prefix_rfl
      | some x =>
        rw [hx] at hs
        obtain ⟨front, left, hf⟩ := doWrite_sends (u := u) (by simpa [SocketImpl.setHandler] using hatt)
          (by simpa [SocketImpl.setHandler] using hfit rfl i hu) hs
        exact ⟨front, hf.written.symm⟩
    | _ => exact hwrites.elim
  · rcases (step_path h.regular.sound hen.1 hs).written (u := u) hok with hsame | ⟨hle, -⟩
    · rw [hsame]
    · -- A `utp_socket` that is not made yet is nobody's.
      have hnone : (w.utp u).userdata = none := by
        cases hd : (w.utp u).userdata with
        | none => rfl
        | some j => exact absurd (h.tied.made u j hd) (by omega)
      rw [h.unwritten u hnone]
      exact List.nil_prefix

theorem run_sending {w : World} {evs : List Event} (h : Run Proper step {} evs w) (i : Nat) :
    Orderly w ∧ Sending i w (traffic i evs) := by
  refine h.recorded (fun w t => Orderly w ∧ Sending i w t) ?_ ⟨orderly_init, sending_init i⟩
  rintro w t ev w' ⟨hw, ht⟩ hen hs
  exact ⟨hw.step hen hs, ht.step hw hen hs⟩

/-- **No byte is lost, duplicated or moved between the writes and libutp.** In every run that starts nothing on a
closed socket, and in which `utp_write` accepts no more than it is offered, what libutp has accepted through the
`utp_socket` of `i` is a front of what the writes on `i` were given, and completed writes have reported no more than
that. While the socket is open the rest is what the write that waits has left, and everything accepted is reported,
but for the `_bytes_sent` of that write. -/
theorem write_conserved {w : World} {evs : List Event} {i u : Nat} (h : Run Proper step {} evs w)
    (hu : (w.utp u).userdata = some i) :
    (w.utp u).written <+: (traffic i evs).given ∧ (traffic i evs).reported ≤ (w.utp u).written.length ∧
      ((w.impls i).closed = false → (w.utp u).written ++ w.unsent i = (traffic i evs).given ∧
        (traffic i evs).reported + (w.impls i).bytesSent = (w.utp u).written.length) := by
  obtain ⟨rest, hrest, hle, hopen⟩ := (run_sending h i).2.stands u hu
  refine ⟨⟨rest, hrest⟩, hle, fun hc => ?_⟩
  obtain ⟨rfl, hcount⟩ := hopen hc
  exact ⟨hrest, hcount⟩

/-- Two writes: libutp takes two bytes of the first, is writable again and takes the third; of the second it takes one
byte of three, and that call makes a send that fails. Three bytes are reported, four were accepted. -/
theorem write_conserved_failed :
    ∃ w, Run Proper step {} [.socket, .bind 0, .asyncConnect 0 default [] [],
        .asyncWriteSome 0 [[1, 2], [3]] [{ accepted := 2 }], .stateChange 0 .writable [{ accepted := 1 }],
        .asyncWriteSome 0 [[4, 5, 6]] [{ sends := [.other 5], accepted := 1 }]] w ∧
      (w.impls 0).closed = true ∧ (w.utp 0).written = [1, 2, 3, 4] ∧
      [1, 2, 3, 4] <+: (traffic 0 [.socket, .bind 0, .asyncConnect 0 default [] [],
        .asyncWriteSome 0 [[1, 2], [3]] [{ accepted := 2 }], .stateChange 0 .writable [{ accepted := 1 }],
        .asyncWriteSome 0 [[4, 5, 6]] [{ sends := [.other 5], accepted := 1 }]]).given ∧
      (traffic 0 [.socket, .bind 0, .asyncConnect 0 default [] [],
        .asyncWriteSome 0 [[1, 2], [3]] [{ accepted := 2 }], .stateChange 0 .writable [{ accepted := 1 }],
        .asyncWriteSome 0 [[4, 5, 6]] [{ sends := [.other 5], accepted := 1 }]]).reported = 3 := by
  obtain ⟨w, hrun, hclosed, hwritten, hu⟩ := exists_run Proper step {}
    [.socket, .bind 0, .asyncConnect 0 default [] [], .asyncWriteSome 0 [[1, 2], [3]] [{ accepted := 2 }],
      .stateChange 0 .writable [{ accepted := 1 }],
      .asyncWriteSome 0 [[4, 5, 6]] [{ sends := [.other 5], accepted := 1 }]]
    (fun w => (w.impls 0).closed = true ∧ (w.utp 0).written = [1, 2, 3, 4] ∧ (w.utp 0).userdata = some 0) (by decide)
  obtain ⟨hfront, -⟩ := write_conserved hrun hu
  rw [hwritten] at hfront
  exact ⟨w, hrun, hclosed, hwritten, hfront, by decide⟩

end World

end AsioUtp
