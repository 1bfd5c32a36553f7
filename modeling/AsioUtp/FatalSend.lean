/-
A send that fails, and everything it closes. `callback_sendto` closes every
registered socket; `utp_close` makes further sends, which may fail and close
the same sockets again while the outer loops are half way through them. That
this ends is in `sends_ok`; here is what it has done by then.

Whatever the nesting, the sockets it closes fall one after the other, each of
them once. `Falls fs` says what a call has done in terms of that list alone,
and composes (`Falls.trans`); so every counter and every completion can be
read off the list, and the list is the sockets that were open.
-/
import AsioUtp.Shutdown

namespace AsioUtp

/-- Closing the socket calls `utp_close`. -/
def SocketImpl.closesUtp (s : SocketImpl) : Bool := s.utpSocket.isSome && !s.gotEof

/-- What `close_with_error` makes of an open socket. -/
def SocketImpl.fallen (s : SocketImpl) : SocketImpl :=
  { s with
    closed := true
    handlers := fun _ => none
    owner := if s.closesUtp then none else s.owner
    decrementClose := s.decrementClose || s.closesUtp }

namespace World

open Machine

/-- Closing `j` calls `utp_close` on `u`. -/
def closesOn (w : World) (u j : Nat) : Bool := (w.impls j).closesUtp && (w.impls j).utpSocket == some u

/-- From `w` to `w'` the sockets of `fs` have been closed, in that order and each with its error, which is one of
`E`; and nothing else has happened. -/
structure Falls (E : ErrorCode → Prop) (fs : List (Nat × ErrorCode)) (w w' : World) : Prop where
  registered : w'.registeredSockets = w.registeredSockets
  nodup : (fs.map Prod.fst).Nodup
  opened : ∀ f ∈ fs, f.1 ∈ w.registeredSockets ∧ (w.impls f.1).closed = false
  errors : ∀ f ∈ fs, E f.2
  fallen : ∀ j ∈ fs.map Prod.fst, w'.impls j = (w.impls j).fallen
  others : ∀ j ∉ fs.map Prod.fst, w'.impls j = w.impls j
  posted : w'.posted = w.posted ++ fs.flatMap fun f => closings (w.impls f.1) f.1 f.2
  closes : ∀ u, (w'.utp u).closes = (w.utp u).closes + fs.countP fun f => w.closesOn u f.1
  onClose : ∀ u, (w'.utp u).onClose = (w.utp u).onClose
  count : w'.ctx.outstandingOpCount = w.ctx.outstandingOpCount + fs.countP fun f => (w.impls f.1).closesUtp

variable {E : ErrorCode → Prop}

theorem Falls.refl (w : World) : Falls E [] w w where
  registered := rfl
  nodup := List.nodup_nil
  opened := by simp
  errors := by simp
  fallen := by simp
  others _ _ := rfl
  posted := (List.append_nil _).symm
  closes _ := rfl
  onClose _ := rfl
  count := rfl

theorem falls_congr {w₁ w : World} {fs : List (Nat × ErrorCode)} (h : ∀ f ∈ fs, w₁.impls f.1 = w.impls f.1) :
    (fs.flatMap fun f => closings (w₁.impls f.1) f.1 f.2) = (fs.flatMap fun f => closings (w.impls f.1) f.1 f.2) ∧
      (∀ u, (fs.countP fun f => w₁.closesOn u f.1) = fs.countP fun f => w.closesOn u f.1) ∧
      (fs.countP fun f => (w₁.impls f.1).closesUtp) = fs.countP fun f => (w.impls f.1).closesUtp := by
  refine ⟨List.flatMap_congr fun f hf => by rw [h f hf], fun u => List.countP_congr fun f hf => ?_,
    List.countP_congr fun f hf => by rw [h f hf]⟩
  rw [closesOn, closesOn, h f hf]

theorem Falls.trans {w w' w'' : World} {fs fs' : List (Nat × ErrorCode)} (h : Falls E fs w w')
    (h' : Falls E fs' w' w'') : Falls E (fs ++ fs') w w'' := by
  have hnot : ∀ j ∈ fs'.map Prod.fst, j ∉ fs.map Prod.fst := fun j hj hmem => by
    obtain ⟨f, hf, rfl⟩ := List.mem_map.1 hj
    have hopen := (h'.opened f hf).2
    rw [h.fallen _ hmem] at hopen
    cases hopen
  have hsame : ∀ f ∈ fs', w'.impls f.1 = w.impls f.1 := fun f hf => h.others _ (hnot _ (List.mem_map_of_mem hf))
  obtain ⟨hposted, hcloses, hcount⟩ := falls_congr hsame
  refine ⟨h'.registered.trans h.registered, ?_, ?_, ?_, ?_, ?_, ?_, ?_, ?_, ?_⟩
  · rw [List.map_append]
    exact h.nodup.append h'.nodup fun j hj hj' => hnot j hj' hj
  · intro f hf
    rcases List.mem_append.1 hf with hf | hf
    · exact h.opened f hf
    · rw [← hsame f hf, ← h.registered]
      exact h'.opened f hf
  · exact fun f hf => (List.mem_append.1 hf).elim (h.errors f) (h'.errors f)
  · intro j hj
    rw [List.map_append, List.mem_append] at hj
    by_cases hj' : j ∈ fs'.map Prod.fst
    · rw [h'.fallen j hj', h.others j (hnot j hj')]
    · rw [h'.others j hj', h.fallen j (hj.resolve_right hj')]
  · intro j hj
    rw [List.map_append, List.mem_append, not_or] at hj
    rw [h'.others j hj.2, h.others j hj.1]
  · rw [h'.posted, h.posted, hposted, List.flatMap_append, List.append_assoc]
  · intro u
    rw [h'.closes, h.closes, hcloses, List.countP_append, Nat.add_assoc]
  · exact fun u => (h'.onClose u).trans (h.onClose u)
  · rw [h'.count, h.count, hcount, List.countP_append, Nat.add_assoc]

/-! ## One socket -/

theorem shutUtp_utp (w : World) (i : Nat) (ec : ErrorCode) (u : Nat) :
    ((w.shutUtp i ec).utp u).closes = (w.utp u).closes + (w.closesOn u i).toNat ∧
      ((w.shutUtp i ec).utp u).onClose = (w.utp u).onClose := by
  unfold shutUtp closesOn SocketImpl.closesUtp
  cases hu : (w.impls i).utpSocket with
  | none => simp [shut_eq, setImpl]
  | some u' =>
    cases heof : (w.impls i).gotEof with
    | true => simp [shut_eq, setImpl]
    | false =>
      by_cases huu : u = u'
      · subst huu
        simp
      · simp [shut_eq, setImpl, huu, Ne.symm huu]

theorem falls_shut {w : World} {i : Nat} {ec : ErrorCode} (hi : i ∈ w.registeredSockets)
    (hopen : (w.impls i).closed = false) (hutp : (w.impls i).closesUtp = false) (hec : E ec) :
    Falls E [(i, ec)] w (w.shutUtp i ec) := by
  have hclosesOn : ∀ u, w.closesOn u i = false := fun u => by rw [closesOn, hutp]; rfl
  have hcloses := shutUtp_utp w i ec
  obtain ⟨utp, heq, -⟩ := shutUtp_eq w i ec
  rw [heq] at hcloses ⊢
  refine ⟨rfl, by simp, by simpa using ⟨hi, hopen⟩, by simpa using hec, ?_, ?_, by simp, fun u => ?_, fun u => ?_, ?_⟩
  · simp [SocketImpl.fallen, hutp]
  · intro j hj
    have hji : j ≠ i := by simpa using hj
    simp [hji]
  · rw [(hcloses u).1, hclosesOn]
    simp [hclosesOn]
  · exact (hcloses u).2
  · simp [hutp]

theorem falls_utp {w w₂ w' : World} {i : Nat} {ec : ErrorCode} {fs : List (Nat × ErrorCode)}
    (hi : i ∈ w.registeredSockets) (hopen : (w.impls i).closed = false) (hutp : (w.impls i).closesUtp = true)
    (hec : E ec) (hsends : Falls E fs (w.shutUtp i ec) w₂) (hfinish : w₂.finishClose i = .ok w') :
    Falls E ((i, ec) :: fs) w w' := by
  have hcloses := shutUtp_utp w i ec
  obtain ⟨utp, heq, -⟩ := shutUtp_eq w i ec
  have himpls : (w.shutUtp i ec).impls =
      Function.update w.impls i { w.impls i with closed := true, handlers := fun _ => none } := by rw [heq]
  have hreg : (w.shutUtp i ec).registeredSockets = w.registeredSockets := by rw [heq]
  obtain ⟨-, c, hinc, rfl⟩ := finishClose_ok_iff.1 hfinish
  obtain ⟨t, m, hinc'⟩ := Context.increment_spec w₂.ctx
  rw [hinc'] at hinc
  cases hinc
  -- The socket itself is closed already, so it does not fall again.
  have hnot : i ∉ fs.map Prod.fst := fun hmem => by
    obtain ⟨f, hf, rfl⟩ := List.mem_map.1 hmem
    have := (hsends.opened f hf).2
    simp [himpls] at this
  have hother : ∀ j, j ≠ i → (w.shutUtp i ec).impls j = w.impls j := fun j hji => by
    rw [himpls, Function.update_of_ne hji]
  have hne : ∀ f ∈ fs, f.1 ≠ i := fun f hf h => hnot (h ▸ List.mem_map_of_mem hf)
  obtain ⟨hposted, hclosesOn, hcount⟩ := falls_congr fun f hf => hother f.1 (hne f hf)
  refine ⟨hsends.registered.trans hreg, List.nodup_cons.2 ⟨hnot, hsends.nodup⟩, ?_, ?_, ?_, ?_, ?_, fun u => ?_,
    fun u => (hsends.onClose u).trans (hcloses u).2, ?_⟩
  · intro f hf
    rcases List.mem_cons.1 hf with rfl | hf
    · exact ⟨hi, hopen⟩
    · rw [← hreg, ← hother f.1 (hne f hf)]
      exact hsends.opened f hf
  · intro f hf
    rcases List.mem_cons.1 hf with rfl | hf
    · exact hec
    · exact hsends.errors f hf
  · intro j hj
    by_cases hji : j = i
    · subst hji
      simp [hsends.others j hnot, himpls, SocketImpl.fallen, hutp]
    · have hj : j ∈ fs.map Prod.fst := (List.mem_cons.1 hj).resolve_left hji
      simp [hji, hsends.fallen j hj, hother j hji]
  · intro j hj
    obtain ⟨hji, hj⟩ := not_or.1 (fun h => hj (List.mem_cons.2 h))
    have hji : j ≠ i := hji
    simp [hji, hsends.others j hj, hother j hji]
  · show w₂.posted = _
    rw [hsends.posted, hposted, heq, List.flatMap_cons, List.append_assoc]
  · show (w₂.utp u).closes = _
    rw [hsends.closes, hclosesOn, (hcloses u).1, List.countP_cons]
    cases w.closesOn u i <;> simp
    omega
  · show w₂.ctx.outstandingOpCount + 1 = _
    have hctx : (w.shutUtp i ec).ctx = w.ctx := by rw [heq]
    rw [hsends.count, hcount, hctx, List.countP_cons_of_pos (by exact hutp)]
    omega

/-! ## All of them -/

/-- The errors of the sends that closing a socket may make are among `E`. -/
def Covers (E : ErrorCode → Prop) (w : World) : Prop :=
  ∀ j u e, j ∈ w.registeredSockets → (w.impls j).closed = false → w.closesOn u j = true →
    e ∈ (w.utp u).onClose → fatal e = true → E e

theorem Covers.of_open {w w' : World} (hw : Covers E w) (hreg : w'.registeredSockets = w.registeredSockets)
    (honClose : ∀ u, (w'.utp u).onClose = (w.utp u).onClose)
    (hsame : ∀ j, (w'.impls j).closed = false → w'.impls j = w.impls j) : Covers E w' := by
  intro j u e hj hopen hu he
  have himpl := hsame j hopen
  rw [closesOn, himpl] at hu
  rw [honClose] at he
  rw [himpl] at hopen
  exact hw j u e (hreg ▸ hj) hopen hu he

theorem Falls.covers {w w' : World} {fs : List (Nat × ErrorCode)} (h : Falls E fs w w') (hw : Covers E w) :
    Covers E w' := by
  refine hw.of_open h.registered h.onClose fun j hopen => h.others j fun hmem => ?_
  rw [h.fallen j hmem] at hopen
  cases hopen

theorem covers_shutUtp {w : World} (hw : Covers E w) (i : Nat) (ec : ErrorCode) : Covers E (w.shutUtp i ec) := by
  have hcloses := shutUtp_utp w i ec
  obtain ⟨utp, heq, -⟩ := shutUtp_eq w i ec
  refine hw.of_open (by rw [heq]) (fun u => (hcloses u).2) fun j hopen => ?_
  rw [heq] at hopen ⊢
  by_cases hji : j = i
  · simp [hji] at hopen
  · simp [hji]

theorem foldlM_falls {close : World → Nat → ErrorCode → Except Fault World} {ec : ErrorCode}
    (hclose : ∀ w i w', Covers E w → i ∈ w.registeredSockets → close w i ec = .ok w' → ∃ fs, Falls E fs w w')
    {l : List Nat} {w w' : World} (hw : Covers E w) (hl : ∀ i ∈ l, i ∈ w.registeredSockets)
    (h : l.foldlM (fun w i => close w i ec) w = .ok w') : ∃ fs, Falls E fs w w' := by
  induction l generalizing w with
  | nil =>
    cases h
    exact ⟨[], .refl _⟩
  | cons i l ih =>
    rw [List.foldlM_cons, Except.bind_ok_iff] at h
    obtain ⟨w₁, h1, h⟩ := h
    obtain ⟨fs, hfs⟩ := hclose w i w₁ hw (hl i (by simp)) h1
    obtain ⟨fs', hfs'⟩ := ih (hfs.covers hw) (fun j hj => by rw [hfs.registered]; exact hl j (by simp [hj])) h
    exact ⟨fs ++ fs', hfs.trans hfs'⟩

theorem sendsWith_falls {close : World → Nat → ErrorCode → Except Fault World}
    (hclose : ∀ w i ec w', Covers E w → E ec → i ∈ w.registeredSockets → close w i ec = .ok w' →
      ∃ fs, Falls E fs w w')
    {ecs : List ErrorCode} {w w' : World} (hw : Covers E w) (hecs : ∀ ec ∈ ecs, fatal ec = true → E ec)
    (h : ecs.foldlM (callbackSendtoWith close) w = .ok w') : ∃ fs, Falls E fs w w' := by
  induction ecs generalizing w with
  | nil =>
    cases h
    exact ⟨[], .refl _⟩
  | cons ec ecs ih =>
    rw [List.foldlM_cons, Except.bind_ok_iff] at h
    obtain ⟨w₁, h1, h⟩ := h
    obtain ⟨fs, hfs⟩ : ∃ fs, Falls E fs w w₁ := by
      unfold callbackSendtoWith at h1
      split at h1
      · next hfail =>
        have hec : E ec := hecs ec (by simp) hfail.2
        exact foldlM_falls (fun w i w' hw hi => hclose w i ec w' hw hec hi) hw (fun _ hi => hi) h1
      · cases h1
        exact ⟨[], .refl _⟩
    obtain ⟨fs', hfs'⟩ := ih (hfs.covers hw) (fun ec' hec' => hecs ec' (by simp [hec'])) h
    exact ⟨fs ++ fs', hfs.trans hfs'⟩

/-- **`close_with_error` closes sockets one after the other**, however deep it re-enters itself. -/
theorem closeWithErrorDepth_falls {depth : Nat} {w w' : World} {i : Nat} {ec : ErrorCode} (hw : Covers E w)
    (hec : E ec) (hi : i ∈ w.registeredSockets) (h : closeWithErrorDepth depth w i ec = .ok w') :
    ∃ fs, Falls E fs w w' := by
  induction depth generalizing w w' i ec with
  | zero => cases h
  | succ depth ih =>
    rcases closeWithErrorDepth_ok h with ⟨-, -, rfl⟩ | ⟨hc, hutp, rfl⟩ | ⟨u, w₁, hc, hu, heof, hsends, hfinish⟩
    · exact ⟨[], .refl _⟩
    · have hno : (w.impls i).closesUtp = false := by
        rcases hutp with h | h <;> simp [SocketImpl.closesUtp, h]
      exact ⟨_, falls_shut hi hc hno hec⟩
    · have hyes : (w.impls i).closesUtp = true := by simp [SocketImpl.closesUtp, hu, heof]
      have hown : ∀ e ∈ (w.utp u).onClose, fatal e = true → E e := fun e he hf =>
        hw i u e hi hc (by simp [closesOn, hyes, hu]) he hf
      obtain ⟨fs, hfs⟩ := sendsWith_falls (fun w i ec w' hw hec hi h => ih hw hec hi h)
        (covers_shutUtp hw i ec) hown hsends
      exact ⟨_, falls_utp hi hc hyes hec hfs hfinish⟩

theorem Falls.of_closed {E' : ErrorCode → Prop} {fs : List (Nat × ErrorCode)} {w w' : World} (h : Falls E' fs w w')
    (hall : ∀ j ∈ w.registeredSockets, (w.impls j).closed = true) : Falls E [] w w' := by
  obtain rfl : fs = [] := List.eq_nil_iff_forall_not_mem.2 fun f hf => by
    obtain ⟨hmem, hopen⟩ := h.opened f hf
    rw [hall _ hmem] at hopen
    cases hopen
  exact { h with errors := by simp }

/-- If a send of `ecs` fails, the first that does has an error of `E`, and so have those that `utp_close` makes. -/
def Blamed (E : ErrorCode → Prop) (w : World) (ecs : List ErrorCode) : Prop :=
  w.ctx.alive = true → ∀ ec, ecs.find? fatal = some ec → E ec ∧ Covers E w

theorem Blamed.mono {w w' : World} {ecs : List ErrorCode} (h : Blamed E w ecs) (halive : w'.ctx.alive = w.ctx.alive)
    (hcovers : Covers E w → Covers E w') : Blamed E w' ecs := fun ha ec hec =>
  (h (halive ▸ ha) ec hec).imp_right hcovers

/-- Of several sends the first that fails closes the sockets; those after it find none that is open. -/
theorem sendsDepth_falls {close : World → Nat → ErrorCode → Except Fault World}
    (hclose : ∀ w i ec w', close w i ec = .ok w' → ∃ depth, closeWithErrorDepth depth w i ec = .ok w')
    {ecs : List ErrorCode} {w w' : World} (hE : Blamed E w ecs)
    (h : ecs.foldlM (callbackSendtoWith close) w = .ok w') : ∃ fs, Falls E fs w w' := by
  have hfalls : ∀ (E : ErrorCode → Prop) w i ec w', Covers E w → E ec → i ∈ w.registeredSockets →
      close w i ec = .ok w' → ∃ fs, Falls E fs w w' := fun E w i ec w' hw hec hi h => by
    obtain ⟨depth, h⟩ := hclose w i ec w' h
    exact closeWithErrorDepth_falls hw hec hi h
  have hshuts : ∀ w i ec w', close w i ec = .ok w' → Shuts w w' ∧ w'.Shut i := fun w i ec w' h => by
    obtain ⟨depth, h⟩ := hclose w i ec w' h
    exact closeWithErrorDepth_shuts h
  by_cases hf : w.Fails ecs
  · obtain ⟨halive, hex⟩ := hf
    obtain ⟨ec, hfind⟩ := Option.isSome_iff_exists.1 (List.find?_isSome.2 hex)
    obtain ⟨hec, hw⟩ := hE halive ec hfind
    obtain ⟨hfatal, before, after, rfl, hbefore⟩ := List.find?_eq_some_iff_append.1 hfind
    have hquiet : before.foldlM (callbackSendtoWith close) w = .ok w := callbackSendtoWith_quiet fun e he => by
      simpa using hbefore e he
    rw [List.append_cons, List.foldlM_append, List.foldlM_append, hquiet, Except.ok_bind, Except.bind_ok_iff] at h
    obtain ⟨w₁, hfirst, hrest⟩ := h
    obtain ⟨fs, hfs⟩ := sendsWith_falls (hfalls E) hw (fun e he _ => by rw [List.mem_singleton.1 he]; exact hec) hfirst
    have hclosed : ∀ j ∈ w₁.registeredSockets, (w₁.impls j).closed = true := fun j hj =>
      ((sendsWith_shuts hshuts hfirst).2 ⟨halive, ec, by simp, hfatal⟩ j (hfs.registered ▸ hj)).1
    obtain ⟨fs', hfs'⟩ := sendsWith_falls (hfalls fun _ => True) (fun _ _ _ _ _ _ _ _ => trivial)
      (fun _ _ _ => trivial) hrest
    exact ⟨fs ++ [], hfs.trans (hfs'.of_closed hclosed)⟩
  · rw [sendsWith_same hf] at h
    cases h
    exact ⟨[], .refl w⟩

theorem sends_falls {w w' : World} {ecs : List ErrorCode} (hE : Blamed E w ecs) (h : w.sends ecs = .ok w') :
    ∃ fs, Falls E fs w w' :=
  sendsDepth_falls (fun _ _ _ _ h => ⟨_, h⟩) hE h

/-! ## What is read off the list -/

theorem Falls.bytesSent {w w' : World} {fs : List (Nat × ErrorCode)} (h : Falls E fs w w') (j : Nat) :
    (w'.impls j).bytesSent = (w.impls j).bytesSent := by
  by_cases hj : j ∈ fs.map Prod.fst
  · rw [h.fallen j hj]
    rfl
  · rw [h.others j hj]

/-- Where all registered sockets are closed, those that fell are those that were open. -/
theorem Falls.mem_iff {w w' : World} {fs : List (Nat × ErrorCode)} (h : Falls E fs w w')
    (hall : ∀ j ∈ w.registeredSockets, (w'.impls j).closed = true) (j : Nat) :
    j ∈ fs.map Prod.fst ↔ j ∈ w.registeredSockets.filter fun j => !(w.impls j).closed := by
  rw [List.mem_filter]
  constructor
  · intro hj
    obtain ⟨f, hf, rfl⟩ := List.mem_map.1 hj
    exact ⟨(h.opened f hf).1, by simp [(h.opened f hf).2]⟩
  · rintro ⟨hj, hopen⟩
    by_contra hnot
    have := hall j hj
    rw [h.others j hnot] at this
    simp [this] at hopen

theorem Falls.perm {w w' : World} {fs : List (Nat × ErrorCode)} (h : Falls E fs w w')
    (hnodup : w.registeredSockets.Nodup) (hall : ∀ j ∈ w.registeredSockets, (w'.impls j).closed = true) :
    (fs.map Prod.fst).Perm (w.registeredSockets.filter fun j => !(w.impls j).closed) :=
  (List.perm_ext_iff_of_nodup h.nodup (hnodup.filter _)).2 (h.mem_iff hall)

/-- So what is counted along the list is counted over the sockets that were open. -/
theorem Falls.countP {w w' : World} {fs : List (Nat × ErrorCode)} (h : Falls E fs w w')
    (hnodup : w.registeredSockets.Nodup) (hall : ∀ j ∈ w.registeredSockets, (w'.impls j).closed = true)
    (p : Nat → Bool) :
    (fs.countP fun f => p f.1) = w.registeredSockets.countP fun j => p j && !(w.impls j).closed := by
  have hmap : (fs.countP fun f => p f.1) = (fs.map Prod.fst).countP p := by
    rw [List.countP_map]
    rfl
  rw [hmap, (h.perm hnodup hall).countP_eq p, List.countP_filter]

/-- A `utp_socket` belongs to one socket, so closing them all calls `utp_close` on it once or never. -/
theorem countP_closesOn {w : World} (hw : Sound w) (u : Nat) :
    (w.registeredSockets.countP fun j => w.closesOn u j && !(w.impls j).closed) =
      if ∃ j ∈ w.registeredSockets, (w.impls j).closed = false ∧ w.closesOn u j = true then 1 else 0 := by
  split
  · next hex =>
    obtain ⟨j, hj, hopen, hu⟩ := hex
    have hown : ∀ k, w.closesOn u k = true → (w.utp u).userdata = some k := fun k hk => by
      simp only [closesOn, Bool.and_eq_true, beq_iff_eq] at hk
      exact (hw.handles.attached k u hk.2).2.2
    have hone : ∀ k ∈ w.registeredSockets, ((w.closesOn u k && !(w.impls k).closed) = true ↔ (k == j) = true) := by
      intro k _
      rw [beq_iff_eq]
      constructor
      · intro hk
        rw [Bool.and_eq_true] at hk
        exact Option.some.inj ((hown k hk.1).symm.trans (hown j hu))
      · rintro rfl
        simp [hopen, hu]
    rw [List.countP_congr hone]
    exact List.count_eq_one_of_mem hw.formed.nodup hj
  · next hnone =>
    rw [List.countP_eq_zero]
    intro j hj hp
    rw [Bool.and_eq_true] at hp
    exact hnone ⟨j, hj, by simpa using hp.2, hp.1⟩

/-- The completions of one slot of one socket. -/
def ofSlot (j : Nat) (slot : Slot) (cs : List Completion) : List Completion :=
  cs.filter fun c => c.impl = some j ∧ c.slot = slot

theorem ofSlot_append (j : Nat) (slot : Slot) (cs cs' : List Completion) :
    ofSlot j slot (cs ++ cs') = ofSlot j slot cs ++ ofSlot j slot cs' := List.filter_append _ _

theorem ofSlot_closings (s : SocketImpl) (j : Nat) (ec : ErrorCode) (slot : Slot) :
    ofSlot j slot (closings s j ec) =
      ((s.handlers slot).map fun x => ({ impl := some j, slot, handler := x, ec } : Completion)).toList := by
  unfold ofSlot closings
  cases ha : s.handlers .accept <;> cases hc : s.handlers .connect <;> cases hr : s.handlers .recv <;>
    cases hs : s.handlers .send <;> cases slot <;> simp [ha, hc, hr, hs]

theorem ofSlot_closings_ne (s : SocketImpl) {j j' : Nat} (hne : j' ≠ j) (ec : ErrorCode) (slot : Slot) :
    ofSlot j slot (closings s j' ec) = [] := by
  rw [ofSlot, List.filter_eq_nil_iff]
  intro c hc
  obtain ⟨-, -, rfl, -⟩ := mem_closings.1 hc
  simp [hne]

/-- A socket that falls has each of its handlers posted once, with the one error. -/
theorem Falls.posted_once {w w' : World} {fs : List (Nat × ErrorCode)} (h : Falls E fs w w') {j : Nat}
    (hj : j ∈ fs.map Prod.fst) : ∃ e, E e ∧ ∀ slot, ofSlot j slot (w'.posted.drop w.posted.length) =
      (((w.impls j).handlers slot).map fun x =>
        ({ impl := some j, slot, handler := x, ec := e } : Completion)).toList := by
  obtain ⟨⟨j', e⟩, hf, rfl⟩ := List.mem_map.1 hj
  refine ⟨e, h.errors _ hf, fun slot => ?_⟩
  have hnodup := h.nodup
  obtain ⟨l₁, l₂, hl⟩ := List.append_of_mem hf
  rw [hl, List.map_append, List.map_cons, List.nodup_middle, List.nodup_cons, ← List.map_append] at hnodup
  have hne : ∀ f ∈ l₁ ++ l₂, f.1 ≠ j' := fun f hf heq =>
    hnodup.1 (List.mem_map.2 ⟨f, hf, heq⟩)
  have hrest : ∀ l : List (Nat × ErrorCode), (∀ f ∈ l, f.1 ≠ j') →
      ofSlot j' slot (l.flatMap fun f => closings (w.impls f.1) f.1 f.2) = [] := by
    intro l hl
    rw [ofSlot, List.filter_flatMap, List.flatMap_eq_nil_iff]
    exact fun f hf => ofSlot_closings_ne _ (hl f hf) _ _
  rw [h.posted, List.drop_left, hl, List.flatMap_append, List.flatMap_cons]
  rw [ofSlot_append, ofSlot_append, hrest l₁ fun f hf => hne f (by simp [hf]),
    hrest l₂ fun f hf => hne f (by simp [hf]),
    ofSlot_closings, List.nil_append, List.append_nil]

/-! ## The error -/

/-- The error of the send that failed, or of one made inside the `utp_close` of a socket it closes. -/
def CausedBy (w : World) (ec e : ErrorCode) : Prop :=
  e = ec ∨ fatal e = true ∧ ∃ j ∈ w.registeredSockets, (w.impls j).closed = false ∧
    ∃ u, w.closesOn u j = true ∧ e ∈ (w.utp u).onClose

theorem sends_singleton (w : World) (ec : ErrorCode) : w.sends [ec] = w.callbackSendto ec := by
  simp [sends]

theorem covers_causedBy (w : World) (ec : ErrorCode) : Covers (w.CausedBy ec) w := fun j u _ hj hopen hu he hf =>
  .inr ⟨hf, j, hj, hopen, u, hu, he⟩

theorem callbackSendto_falls {w w' : World} {ec : ErrorCode} (h : w.callbackSendto ec = .ok w') :
    ∃ fs, Falls (w.CausedBy ec) fs w w' := by
  rw [← sends_singleton] at h
  refine sends_falls (fun _ e he => ⟨.inl ?_, covers_causedBy w ec⟩) h
  exact List.mem_singleton.1 (List.mem_of_find?_eq_some he)

/-- Whatever was pending is posted with an error that the first send that fails is the cause of. -/
theorem sends_caused {w w' : World} {ecs : List ErrorCode} {ec : ErrorCode} (halive : w.ctx.alive = true)
    (hfind : ecs.find? fatal = some ec) (h : w.sends ecs = .ok w') {i : Nat} (hi : i ∈ w.registeredSockets)
    (hopen : (w.impls i).closed = false) {slot : Slot} {y : Handler} (hy : (w.impls i).handlers slot = some y) :
    ∃ e, w.CausedBy ec e ∧ { impl := some i, slot, handler := y, ec := e } ∈ w'.posted := by
  obtain ⟨fs, hfs⟩ : ∃ fs, Falls (w.CausedBy ec) fs w w' := by
    refine sends_falls (fun _ e he => ⟨.inl ?_, covers_causedBy w ec⟩) h
    exact Option.some.inj (he.symm.trans hfind)
  have hfails : w.Fails ecs := ⟨halive, ec, List.mem_of_find?_eq_some hfind, List.find?_some hfind⟩
  have hclosed := ((sends_shuts h).2 hfails i hi).1
  have hfell : i ∈ fs.map Prod.fst := by
    by_contra hnot
    rw [hfs.others i hnot, hopen] at hclosed
    cases hclosed
  obtain ⟨⟨i, e⟩, hf, rfl⟩ := List.mem_map.1 hfell
  refine ⟨e, hfs.errors _ hf, ?_⟩
  rw [hfs.posted]
  exact List.mem_append_right _ (List.mem_flatMap.2 ⟨_, hf, mem_closings.2 ⟨slot, y, rfl, hy⟩⟩)

/-! ## The theorem -/

/-- **A send that fails closes every socket, once, and ends.** Whatever sockets are registered, with whatever
pending on the open ones and nothing on the closed ones, and whatever the sends inside `utp_close` answer:
`callback_sendto` fails no assert; then every socket is closed with its slots empty; every handler that was
pending, and none else, has been posted, once and with the error of this send or of one inside; `utp_close` has
been called once on the `utp_socket` of each socket that was open and not at its end, and on none else; and each
of those has `_decrement_close` set, with one increment of the count. -/
theorem fatal_send_closes_all {w : World} (hw : Closable w) (halive : w.ctx.alive = true) {ec : ErrorCode}
    (hec : fatal ec = true) :
    ∃ w', w.callbackSendto ec = .ok w' ∧ w'.registeredSockets = w.registeredSockets ∧
      (∀ j ∈ w.registeredSockets, (w'.impls j).closed = true ∧ ∀ slot, (w'.impls j).handlers slot = none) ∧
      (∀ j ∈ w.registeredSockets, (w.impls j).closed = true → w'.impls j = w.impls j) ∧
      (∃ new, w'.posted = w.posted ++ new ∧
        (∀ c ∈ new, ∃ j ∈ w.registeredSockets, (w.impls j).closed = false ∧ c.impl = some j) ∧
        ∀ j ∈ w.registeredSockets, (w.impls j).closed = false → ∃ e, w.CausedBy ec e ∧ ∀ slot,
          ofSlot j slot new = (((w.impls j).handlers slot).map fun x =>
            ({ impl := some j, slot, handler := x, ec := e } : Completion)).toList) ∧
      (∀ u, (w'.utp u).closes = (w.utp u).closes +
        if ∃ j ∈ w.registeredSockets, (w.impls j).closed = false ∧ w.closesOn u j = true then 1 else 0) ∧
      (∀ j ∈ w.registeredSockets, (w.impls j).closed = false →
        (w'.impls j).decrementClose = (w.impls j).closesUtp) ∧
      w'.ctx.outstandingOpCount = w.ctx.outstandingOpCount +
        w.registeredSockets.countP fun j => (w.impls j).closesUtp && !(w.impls j).closed := by
  obtain ⟨w', hok, -, -⟩ := sends_ok hw [ec]
  obtain ⟨-, hall⟩ := sends_shuts hok
  have hshut : ∀ j ∈ w.registeredSockets, w'.Shut j := hall ⟨halive, ec, by simp, hec⟩
  have hclosed : ∀ j ∈ w.registeredSockets, (w'.impls j).closed = true := fun j hj => (hshut j hj).1
  rw [sends_singleton] at hok
  obtain ⟨fs, hfs⟩ := callbackSendto_falls hok
  have hnodup := hw.sound.formed.nodup
  have hfell : ∀ j ∈ w.registeredSockets, (w.impls j).closed = false → j ∈ fs.map Prod.fst := fun j hj hopen =>
    (hfs.mem_iff hclosed j).2 (List.mem_filter.2 ⟨hj, by simp [hopen]⟩)
  have hstayed : ∀ j, (w.impls j).closed = true → j ∉ fs.map Prod.fst := fun j hc hmem => by
    have := (List.mem_filter.1 ((hfs.mem_iff hclosed j).1 hmem)).2
    simp [hc] at this
  refine ⟨w', hok, hfs.registered, hshut, fun j _ hc => hfs.others j (hstayed j hc),
    ⟨_, hfs.posted, fun c hc => ?_, fun j hj hopen => ?_⟩, fun u => ?_, fun j hj hopen => ?_, ?_⟩
  · obtain ⟨f, hf, hc⟩ := List.mem_flatMap.1 hc
    obtain ⟨-, -, rfl, -⟩ := mem_closings.1 hc
    exact ⟨f.1, (hfs.opened f hf).1, (hfs.opened f hf).2, rfl⟩
  · obtain ⟨e, he, hslots⟩ := hfs.posted_once (hfell j hj hopen)
    rw [hfs.posted, List.drop_left] at hslots
    exact ⟨e, he, hslots⟩
  · rw [hfs.closes, hfs.countP hnodup hclosed, countP_closesOn hw.sound]
  · rw [hfs.fallen j (hfell j hj hopen)]
    simp [SocketImpl.fallen, hw.settled j hopen]
  · rw [hfs.count, hfs.countP hnodup hclosed fun j => (w.impls j).closesUtp]

theorem Regular.closable {w : World} (hw : Regular w)
    (hidle : ∀ i ∈ w.registeredSockets, (w.impls i).closed = true → ∀ slot, (w.impls i).handlers slot = none) :
    Closable w := by
  refine ⟨hw.sound, hw.settled, fun i hc => ?_⟩
  by_cases hi : i ∈ w.registeredSockets
  · exact hidle i hi hc
  · exact (hw.placed.idle i hi).2.2

/-- Three sockets, two of them connecting; the sends inside `utp_close` of both fail again. The third, which has no
`utp_socket`, is closed too. -/
theorem fatal_send_closes_three :
    ∃ w w', Run Enabled step {} [.socket, .socket, .socket, .bind 0, .bind 1, .bind 2,
        .asyncConnect 0 default [] [.wouldBlock, .other 7], .asyncConnect 1 default [] [.other 8, .other 9]] w ∧
      w.callbackSendto (.other 5) = .ok w' ∧ (∀ j ∈ [0, 1, 2], (w'.impls j).closed = true) ∧
      (w'.utp 0).closes = 1 ∧ (w'.utp 1).closes = 1 ∧ w'.ctx.outstandingOpCount = 4 := by
  obtain ⟨w, hrun, ⟨hreg, halive, hopen⟩, hcloses0, hcloses1, hcount⟩ := exists_run Enabled step {}
    [.socket, .socket, .socket, .bind 0, .bind 1, .bind 2,
      .asyncConnect 0 default [] [.wouldBlock, .other 7], .asyncConnect 1 default [] [.other 8, .other 9]]
    (fun w => (w.registeredSockets = [0, 1, 2] ∧ w.ctx.alive = true ∧
        ∀ j ∈ w.registeredSockets, (w.impls j).closed = false) ∧
      (w.utp 0).closes + (if ∃ j ∈ w.registeredSockets, (w.impls j).closed = false ∧ w.closesOn 0 j = true
        then 1 else 0) = 1 ∧
      (w.utp 1).closes + (if ∃ j ∈ w.registeredSockets, (w.impls j).closed = false ∧ w.closesOn 1 j = true
        then 1 else 0) = 1 ∧
      w.ctx.outstandingOpCount +
        (w.registeredSockets.countP fun j => (w.impls j).closesUtp && !(w.impls j).closed) = 4) (by decide)
  have hw : Closable w := (reachable_regular ⟨_, hrun⟩).closable fun i hi hc => by
    rw [hopen i hi] at hc
    cases hc
  obtain ⟨w', hok, -, hall, -, -, hcloses, -, hcount'⟩ :=
    fatal_send_closes_all hw halive (show fatal (.other 5) = true from rfl)
  refine ⟨w, w', hrun, hok, fun j hj => (hall j (hreg ▸ hj)).1, ?_, ?_, hcount'.trans hcount⟩
  · exact (hcloses 0).trans hcloses0
  · exact (hcloses 1).trans hcloses1

end World

end AsioUtp
