/-
Every call of `async_receive_from` is answered exactly once, with the first
datagram that arrives after it (`receives_exact`): each step of a port keeps
the agreement with the ledger of `AsioUtp.ReceiveLedger`. What is known of a
port on the way also says which of its events come to their end
(`port_ok_iff`).
-/
import AsioUtp.ReceiveLedger

namespace AsioUtp.Port

open Machine Multiplexer
open Booked (posts posts_post)

variable {m m' : Multiplexer Entry} {kept : Nat → Prop}

/-! ## The steps -/

variable {p p' : Port} {l : Mail}

theorem Mailed.unrequested (h : Mailed p l) {n : Nat} (hn : p.calls ≤ n) : l.requests n = none := by
  by_contra hne
  obtain ⟨r, hr⟩ := Option.ne_none_iff_exists'.1 hne
  have := (h.made n r hr).1
  omega

theorem Mailed.unposted (h : Mailed p l) : posts p p.calls = [] := by
  simp only [posts, List.map_eq_nil_iff, List.filter_eq_nil_iff, decide_eq_true_eq]
  intro q hq heq
  have := h.numbered q hq
  omega

/-- The call in a state's slot is a request that waits. -/
theorem Mailed.waits (h : Mailed p l) {k n : Nat} (hk : (p.states k).rxHandler = some n) :
    ∃ r, l.requests n = some r ∧ r.state = k ∧ r.isOpen = true ∧ posts p n = [] ∧ l.filled n = none ∧
      Waits p l n r := by
  obtain ⟨hposts, r, hr, hrk⟩ := h.slot k n hk
  cases h.fate n r hr with
  | waiting h1 h2 h3 h4 => exact ⟨r, hr, hrk, h1, h2, h3, h4⟩
  | refused _ h2 | aborted _ _ h2 | delivered _ _ _ h2 =>
    rw [hposts] at h2
    cases h2

/-- A step that concerns no receive. -/
theorem Mailed.quiet (h : Mailed p l) (hs : ∀ k, SameReceive (p.states k) (p'.states k))
    (hcalls : p.calls ≤ p'.calls) (hopened : p'.opened = p.opened)
    (hposts : ∀ n r, l.requests n = some r → posts p' n = posts p n)
    (htx : ∀ k n, (p'.states k).txHandler = some n → l.requests n = none ∧ n < p'.calls)
    (hnumbered : ∀ q ∈ p'.posted, q.call < p'.calls)
    (hm : Steady p.multiplexer p'.multiplexer fun k => (p.states k).owned = true) : Mailed p' l := by
  have hc : Change p l p' l fun _ => True :=
    { calls := hcalls
      opened := hopened.ge
      arrivals := List.prefix_rfl
      same := fun k _ => hs k
      closed := fun k _ hk => (hs k).owned.trans hk
      turn := fun k _ _ hk ht => hm.turn hk ht
      requested := fun _ _ hr => hr
      requests := fun _ _ hr => .inl hr
      untouched := fun n r hr _ => ⟨hposts n r hr, rfl⟩
      settled := fun _ _ _ _ _ _ _ hk => absurd trivial hk
      slot := fun _ _ hk => absurd trivial hk
      tx := htx
      numbered := hnumbered
      filled := fun n hn => h.filled n (hcalls.trans hn)
      linked := fun k hk => .inl ⟨trivial, hm.linked k hk⟩
      flush := hm.handsOut h.flush }
  exact h.change hc

/-- Only the loop has moved on. -/
theorem Mailed.loop (h : Mailed p l) {m : Multiplexer Entry}
    (hm : Steady p.multiplexer m fun k => (p.states k).owned = true) : Mailed { p with multiplexer := m } l :=
  h.quiet (fun _ => .refl _) le_rfl rfl (fun _ _ _ => rfl) h.tx h.numbered hm

theorem Mailed.release (h : Mailed p l) (k : Nat) : Mailed (p.release k) l := by
  unfold Port.release
  split
  · exact h
  · next hheld =>
    refine h.loop ?_
    split
    · refine steady_unlink _ _ fun j hj heq => hheld (.inl ?_)
      cases heq
      exact hj
    · exact .refl _ _

/-- A call that is no receive takes its number, and is refused. -/
theorem Mailed.refuse (h : Mailed p l) {ec : ErrorCode} {size : Nat} :
    Mailed (({ p with calls := p.calls + 1 } : Port).post p.calls ec size) l := by
  refine h.quiet (fun _ => .refl _) (Nat.le_succ _) rfl (fun n r hr => ?_) (fun k n hk => ?_) (fun q hq => ?_)
    (.refl _ _)
  · have hne : p.calls ≠ n := by
      have := (h.made n r hr).1
      omega
    rw [posts_post, if_neg hne, List.append_nil]
    rfl
  · obtain ⟨h1, h2⟩ := h.tx k n hk
    exact ⟨h1, Nat.lt_succ_of_lt h2⟩
  · rcases List.mem_append.1 hq with hq | hq
    · exact Nat.lt_succ_of_lt (h.numbered q hq)
    · rw [List.mem_singleton.1 hq]
      exact Nat.lt_succ_self _

/-- A state whose send changes. -/
theorem sameReceive_update {k : Nat} {s : State} (hst : p'.states = Function.update p.states k s)
    (hs : SameReceive (p.states k) s) (j : Nat) : SameReceive (p.states j) (p'.states j) := by
  rw [hst]
  by_cases hj : j = k
  · subst hj
    rwa [Function.update_self]
  · rw [Function.update_of_ne hj]
    exact .refl _

theorem mailed_asyncSendTo (h : Mailed p l) (k : Nat) (buffers : List (List UInt8)) (dst : Nat) :
    Mailed (p.asyncSendTo k buffers dst) l := by
  unfold Port.asyncSendTo
  dsimp only
  split
  · refine h.quiet (sameReceive_update rfl ⟨rfl, rfl, rfl, rfl⟩) (Nat.le_succ _) rfl (fun _ _ _ => rfl)
      (fun j n hj => ?_) (fun q hq => Nat.lt_succ_of_lt (h.numbered q hq)) (.refl _ _)
    by_cases hjk : j = k
    · subst hjk
      simp only [setState, Function.update_self, Option.some.injEq] at hj
      subst hj
      exact ⟨h.unrequested le_rfl, Nat.lt_succ_self _⟩
    · simp only [setState, Function.update_of_ne hjk] at hj
      obtain ⟨h1, h2⟩ := h.tx j n hj
      exact ⟨h1, Nat.lt_succ_of_lt h2⟩
  · exact h.refuse

theorem Mailed.onSent (h : Mailed p l) (k : Nat) (ec : ErrorCode) (size : Nat) : Mailed (p.onSent k ec size) l := by
  unfold Port.onSent
  split
  · exact h
  · next call hcall =>
    obtain ⟨hno, hlt⟩ := h.tx k call hcall
    refine h.quiet (sameReceive_update rfl ⟨rfl, rfl, rfl, rfl⟩) le_rfl rfl (fun n r hr => ?_)
      (fun j n hj => ?_) (fun q hq => ?_) (.refl _ _)
    · have hne : call ≠ n := fun heq => by
        rw [← heq, hno] at hr
        cases hr
      rw [posts_post, if_neg hne, List.append_nil]
      rfl
    · by_cases hjk : j = k
      · subst hjk
        simp [setState, post] at hj
      · simp only [post, setState, Function.update_of_ne hjk] at hj
        exact h.tx j n hj
    · rcases List.mem_append.1 hq with hq | hq
      · exact h.numbered q hq
      · rw [List.mem_singleton.1 hq]
        exact hlt

/-- What concerns no receive: the sends, what has been notified of them, and the life of the multiplexer. -/
theorem Mailed.apart (h : Mailed p l) (inFlight : List Send) (completing : List SendCompletion)
    (notified : List Notification) (alive : Bool) : Mailed { p with inFlight, completing, notified, alive } l :=
  h.quiet (fun _ => .refl _) le_rfl rfl (fun _ _ _ => rfl) h.tx h.numbered (.refl _ _)

theorem Mailed.finishSend (h : Mailed p l) (s : Send) (ec : ErrorCode) (size : Nat) :
    Mailed (p.finishSend s ec size) l :=
  ((h.apart (p.inFlight.erase s) p.completing p.notified p.alive).onSent _ _ _).release _

theorem mailed_sent (h : Mailed p l) (s : Send) (ec : ErrorCode) (size : Nat) :
    Mailed (p.sendCompleted s ec size) l := by
  unfold Port.sendCompleted
  split
  · exact h.apart p.inFlight _ p.notified p.alive
  · exact h.finishSend s _ _

theorem mailed_sendToSignal (h : Mailed p l) (hp : p.sendToSignal = .ok p') : Mailed p' l := by
  unfold Port.sendToSignal at hp
  split at hp
  · cases hp
    exact h
  · split at hp
    · cases hp
    · cases hp
      exact h.apart p.inFlight p.completing _ p.alive

theorem mailed_sentEnd (h : Mailed p l) : Mailed p.onSentEnd l := by
  unfold Port.onSentEnd
  split
  · exact h
  · next c rest _ => exact (h.apart p.inFlight rest p.notified p.alive).finishSend c.send c.ec c.size

theorem mailed_bind (h : Mailed p l) : Mailed p.bind l := by
  have hother : ∀ k, k ≠ p.opened → p.bind.states k = p.states k := fun k hk => by
    simp only [Port.bind, setState, Function.update_of_ne hk]
  have hnew : p.bind.states p.opened = { handler := true, impl := true, owned := true } := by
    simp only [Port.bind, setState, Function.update_self]
  have hc : Change p l p.bind l fun k => k < p.opened :=
    { calls := le_rfl
      opened := Nat.le_succ _
      arrivals := List.prefix_rfl
      same := fun k hk => by rw [hother k (by omega)]; exact .refl _
      closed := fun k hk hown => by rwa [hother k (by omega)]
      turn := fun _ _ _ _ ht => ht
      requested := fun _ _ hr => hr
      requests := fun _ _ hr => .inl hr
      untouched := fun _ _ _ _ => ⟨rfl, rfl⟩
      settled := fun n r hr _ _ _ _ hk => absurd (h.made n r hr).2 hk
      slot := fun k n hk hrx => by
        by_cases hko : k = p.opened
        · rw [hko, hnew] at hrx
          cases hrx
        · rw [hother k hko] at hrx
          obtain ⟨r, hr, rfl, -⟩ := h.waits hrx
          exact absurd (h.made n r hr).2 hk
      tx := fun k n htx => by
        by_cases hko : k = p.opened
        · rw [hko, hnew] at htx
          cases htx
        · rw [hother k hko] at htx
          exact h.tx k n htx
      numbered := h.numbered
      filled := h.filled
      linked := fun k hk => .inl ⟨(h.linked k hk).1, hk⟩
      flush := h.flush }
  exact h.change hc

/-- A receive waits from when its entry is registered. -/
theorem Waits.registered {k n ep : Nat} {buffers : List (List UInt8)} {s : State}
    (hs : p.states k = { s with rxBuffers := buffers, rxEp := some ep, rxHandler := some n })
    (hown : s.owned = true) (hmem : .state k ∈ p.multiplexer.recvHandlers) :
    Waits p l n ⟨k, true, buffers, l.arrivals.length⟩ where
  slot := by rw [hs]
  buffers := by rw [hs]
  ep := by
    rw [hs]
    exact Option.some_ne_none _
  owned := by
    rw [hs]
    exact hown
  turn := .inl ⟨hmem, rfl⟩

/-- A receive is started on an open `udp_multiplexer`, and its entry registered. -/
theorem mailed_receive (h : Mailed p l) {k : Nat} (ep : Nat) (buffers : List (List UInt8))
    (hown : (p.states k).owned = true) (hlt : k < p.opened) (hrx : (p.states k).rxHandler = none)
    (hm : p.multiplexer.registerRecvHandler (.state k) = .ok m) :
    Mailed
      { p with
        calls := p.calls + 1, multiplexer := m
        states := Function.update p.states k
          { p.states k with rxBuffers := buffers, rxEp := some ep, rxHandler := some p.calls } }
      { l with requests := Function.update l.requests p.calls (some ⟨k, true, buffers, l.arrivals.length⟩) } := by
  obtain ⟨hreg, hflush, hep, hbuf⟩ := register_lists hm
  have hpend : m.pending = p.multiplexer.pending := by rw [pending, hflush, pending]
  have hposts := h.unposted
  set r : Request := ⟨k, true, buffers, l.arrivals.length⟩ with hr
  set l' : Mail := { l with requests := Function.update l.requests p.calls (some r) } with hl'
  set s : State := { p.states k with rxBuffers := buffers, rxEp := some ep, rxHandler := some p.calls } with hs
  set p' : Port := { p with calls := p.calls + 1, multiplexer := m, states := Function.update p.states k s } with hp'
  have hself : p'.states k = s := Function.update_self ..
  have hother : ∀ j, j ≠ k → p'.states j = p.states j := fun j hj => Function.update_of_ne hj ..
  have hold : ∀ n, n < p.calls → l'.requests n = l.requests n := fun n hn => Function.update_of_ne (by omega) ..
  have hnew : l'.requests p.calls = some r := Function.update_self ..
  have hmem : .state k ∈ m.recvHandlers := by
    rw [hreg]
    exact List.mem_append_right _ (List.mem_singleton_self _)
  have hturn : ∀ j b, Turn p.multiplexer l.arrivals.length j b → Turn m l.arrivals.length j b := fun j b ht => by
    rw [Turn, hreg, hpend]
    exact ht.imp_left (.imp_left (List.mem_append_left _))
  have hc : Change p l p' l' fun j => j ≠ k :=
    { calls := Nat.le_succ _
      opened := le_rfl
      arrivals := List.prefix_rfl
      same := fun j hj => by rw [hother j hj]; exact .refl _
      closed := fun j _ hj => by
        have hjk : j ≠ k := fun heq => by
          rw [heq, hown] at hj
          cases hj
        rwa [hother j hjk]
      turn := fun j b _ _ ht => hturn j b ht
      requested := fun n r' hr' => (hold n (h.made n r' hr').1).trans hr'
      requests := fun n r' hr' => by
        by_cases hn : n = p.calls
        · subst hn
          obtain rfl : r = r' := by simpa [hnew] using hr'
          exact .inr ⟨Nat.lt_succ_self _, hlt, .waiting rfl hposts (h.filled _ le_rfl) (.registered hself hown hmem)⟩
        · exact .inl ((Function.update_of_ne hn ..).symm.trans hr')
      untouched := fun _ _ _ _ => ⟨rfl, rfl⟩
      settled := fun n r' _ _ _ _ hw hk => by
        have hslot := hw.slot
        rw [not_not.1 hk, hrx] at hslot
        cases hslot
      slot := fun j n hj hn => by
        obtain rfl := not_not.1 hj
        rw [hself] at hn
        obtain rfl : p.calls = n := by simpa [hs] using hn
        exact ⟨hposts, r, hnew, rfl⟩
      tx := fun j n hj => by
        have hj' : (p.states j).txHandler = some n := by
          by_cases hjk : j = k
          · subst hjk
            rw [hself] at hj
            exact hj
          · rwa [hother j hjk] at hj
        obtain ⟨h1, h2⟩ := h.tx j n hj'
        exact ⟨(hold n h2).trans h1, Nat.lt_succ_of_lt h2⟩
      numbered := fun q hq => Nat.lt_succ_of_lt (h.numbered q hq)
      filled := fun n hn => h.filled n (Nat.le_of_succ_le hn)
      linked := fun j hj => by
        by_cases hjk : j = k
        · subst hjk
          refine .inr ⟨hlt, fun _ => ?_⟩
          rw [hself]
          exact Option.some_ne_none _
        · rcases (linked_register (registerRecvHandler_enabled hm) hm).1 hj with heq | hj
          · cases heq
            exact absurd rfl hjk
          · exact .inl ⟨hjk, hj⟩
      flush := fun f hf => by
        show ∃ a, _ ∧ _ ∧ m.rxEndpoint = _ ∧ m.rxBuffer.take f.size = _
        rw [hep, hbuf]
        exact h.flush f (by rw [← hflush]; exact hf) }
  exact h.change hc

/-- A request that has been refused is booked. -/
theorem Mailed.book (h : Mailed p l) {n : Nat} {r : Request} (hn : l.requests n = none) (hlt : n < p.calls)
    (hr : r.state < p.opened) (hopen : r.isOpen = false) (hposts : posts p n = [(.badDescriptor, 0)])
    (hfilled : l.filled n = none) (htx : ∀ k, (p.states k).txHandler ≠ some n) :
    Mailed p { l with requests := Function.update l.requests n (some r) } := by
  have hold : ∀ m r', l.requests m = some r' → Function.update l.requests n (some r) m = some r' := by
    intro m r' hm
    have hne : m ≠ n := fun heq => by
      rw [heq, hn] at hm
      cases hm
    rwa [Function.update_of_ne hne]
  have hnew : ∀ m r', Function.update l.requests n (some r) m = some r' → m = n ∧ r' = r ∨ l.requests m = some r' := by
    intro m r' hm
    by_cases hmn : m = n
    · subst hmn
      rw [Function.update_self] at hm
      exact .inl ⟨rfl, (Option.some.inj hm).symm⟩
    · rw [Function.update_of_ne hmn] at hm
      exact .inr hm
  refine ⟨fun m r' hm => ?_, fun m r' hm => ?_, fun k m hk => ?_, fun k m hk => ?_, h.numbered, h.filled, h.linked,
    h.flush⟩
  · rcases hnew m r' hm with ⟨rfl, rfl⟩ | hm
    · exact .refused hopen hposts hfilled
    · exact (h.fate m r' hm).mono rfl rfl List.prefix_rfl id fun hw => hw.mono (.refl _) id
  · rcases hnew m r' hm with ⟨rfl, rfl⟩ | hm
    · exact ⟨hlt, hr⟩
    · exact h.made m r' hm
  · obtain ⟨hm, r', hr', hrk⟩ := h.slot k m hk
    exact ⟨hm, r', hold m r' hr', hrk⟩
  · obtain ⟨h1, h2⟩ := h.tx k m hk
    have hne : m ≠ n := fun heq => htx k (heq ▸ hk)
    exact ⟨(Function.update_of_ne hne ..).trans h1, h2⟩

theorem mailed_asyncReceiveFrom (h : Mailed p l) {k ep : Nat} {buffers : List (List UInt8)} (hlt : k < p.opened)
    (hp : p.asyncReceiveFrom k ep buffers = .ok p') : Mailed p' (p.note (.asyncReceiveFrom k ep buffers) p' l) := by
  simp only [asyncReceiveFrom] at hp
  split at hp
  · next hown =>
    simp only [Except.bind_ok_iff, Except.require_ok_iff, Except.pure_ok_iff] at hp
    obtain ⟨-, hrx, m, hm, rfl⟩ := hp
    have hown : (p.states k).owned = true := hown
    have hreceive := mailed_receive h ep buffers hown hlt hrx hm
    simp only [note]
    rwa [← hown] at hreceive
  · next hown =>
    cases hp
    have hown : (p.states k).owned = false := by simpa using hown
    simp only [note, hown]
    refine h.refuse.book (h.unrequested le_rfl) (Nat.lt_succ_self _) hlt rfl ?_ (h.filled _ le_rfl) fun j hj => ?_
    · rw [posts_post, if_pos rfl]
      exact congrArg (· ++ _) h.unposted
    · have := (h.tx j p.calls hj).2
      omega

/-! ## The receive loop hands out, and `close` aborts -/

/-- What state `k` waits for is over: what it was is settled. -/
theorem Mailed.empty (h : Mailed p l) {k : Nat} {s : State} {posted : List Posted}
    {filled : Nat → Option Filled} {endpoints : Nat → Option Endpoint} (hrx : s.rxHandler = none)
    (htx : ∀ n, s.txHandler = some n → (p.states k).txHandler = some n)
    (hown : s.owned = true → (p.states k).owned = true)
    (hm : Steady p.multiplexer m fun j => j ≠ k ∧ (p.states j).owned = true)
    (hlinked : m.Linked (.state k) → s.owned = false)
    (huntouched : ∀ n r, l.requests n = some r → (p.states k).rxHandler ≠ some n →
      posts { p with posted } n = posts p n ∧ filled n = l.filled n)
    (hnumbered : ∀ q ∈ posted, q.call < p.calls) (hfilled : ∀ n, p.calls ≤ n → filled n = none)
    (hsettled : ∀ n r, l.requests n = some r → r.state = k → r.isOpen = true → posts p n = [] → l.filled n = none →
      Waits p l n r →
      Fate { p with posted, endpoints, multiplexer := m, states := Function.update p.states k s }
        { l with filled } n r) :
    Mailed { p with posted, endpoints, multiplexer := m, states := Function.update p.states k s }
      { l with filled } := by
  have hself : Function.update p.states k s k = s := Function.update_self ..
  have hother : ∀ j, j ≠ k → Function.update p.states k s j = p.states j := fun j hj => Function.update_of_ne hj ..
  have hc : Change p l { p with posted, endpoints, multiplexer := m, states := Function.update p.states k s }
      { l with filled } fun j => j ≠ k :=
    { calls := le_rfl
      opened := le_rfl
      arrivals := List.prefix_rfl
      same := fun j hj => by
        show SameReceive _ (Function.update p.states k s j)
        rw [hother j hj]
        exact .refl _
      closed := fun j _ hj => by
        show (Function.update p.states k s j).owned = false
        by_cases hjk : j = k
        · subst hjk
          rw [hself]
          by_contra hs
          rw [hown (by simpa using hs)] at hj
          cases hj
        · rwa [hother j hjk]
      turn := fun j _ hjk hj ht => hm.turn ⟨hjk, hj⟩ ht
      requested := fun _ _ hr => hr
      requests := fun _ _ hr => .inl hr
      untouched := fun n r hr hk => huntouched n r hr fun hslot => by
        obtain ⟨r', hr', hrk, -, -, -, hw⟩ := h.waits hslot
        obtain rfl : r = r' := by simpa [hr'] using hr.symm
        exact hk hw hrk
      settled := fun n r hr h1 h2 h3 hw hk => hsettled n r hr (not_not.1 hk) h1 h2 h3 hw
      slot := fun j n hj hn => by
        obtain rfl := not_not.1 hj
        have hn : (Function.update p.states j s j).rxHandler = some n := hn
        rw [hself, hrx] at hn
        cases hn
      tx := fun j n hj => by
        have hj : (Function.update p.states k s j).txHandler = some n := hj
        by_cases hjk : j = k
        · subst hjk
          rw [hself] at hj
          exact h.tx j n (htx n hj)
        · rw [hother j hjk] at hj
          exact h.tx j n hj
      numbered := hnumbered
      filled := hfilled
      linked := fun j hj => by
        by_cases hjk : j = k
        · subst hjk
          refine .inr ⟨(h.linked j (hm.linked j hj)).1, fun hjo => ?_⟩
          have hjo : (Function.update p.states j s j).owned = true := hjo
          rw [hself, hlinked hj] at hjo
          cases hjo
        · exact .inl ⟨hjk, hm.linked j hj⟩
      flush := hm.handsOut h.flush }
  exact h.change hc

theorem posts_postAborted (p : Port) (o : Option Nat) (n : Nat) :
    posts (p.postAborted o) n = posts p n ++ if o = some n then [(.operationAborted, 0)] else [] := by
  cases o with
  | none => simp [postAborted]
  | some call => simp [postAborted]

theorem postAborted_eq (p : Port) (o : Option Nat) :
    p.postAborted o = { p with posted := (p.postAborted o).posted } := by
  cases o <;> rfl

theorem numbered_postAborted (hp : ∀ q ∈ p.posted, q.call < p.calls) {o : Option Nat}
    (ho : ∀ n, o = some n → n < p.calls) : ∀ q ∈ (p.postAborted o).posted, q.call < p.calls := by
  cases o with
  | none => exact hp
  | some n =>
    intro q hq
    rcases List.mem_append.1 hq with hq | hq
    · exact hp q hq
    · rw [List.mem_singleton.1 hq]
      exact ho n rfl

theorem mailed_close (h : Mailed p l) (k : Nat) : Mailed (p.close k) l := by
  unfold Port.close
  dsimp only
  split
  · refine Mailed.release ?_ k
    have hrx : ∀ n, (p.states k).rxHandler = some n → n < p.calls := fun n hn => by
      obtain ⟨r, hr, -⟩ := h.waits hn
      exact (h.made n r hr).1
    have htx : ∀ n, (p.states k).txHandler = some n → l.requests n = none ∧ n < p.calls := h.tx k
    generalize hrxe : (p.states k).rxHandler = rx at hrx
    generalize htxe : (p.states k).txHandler = tx at htx
    have hposts : ∀ n r, l.requests n = some r → posts ((p.postAborted rx).postAborted tx) n =
        posts p n ++ if rx = some n then [(.operationAborted, 0)] else [] := fun n r hr => by
      have hne : tx ≠ some n := fun heq => by
        rw [(htx n heq).1] at hr
        cases hr
      rw [posts_postAborted, if_neg hne, List.append_nil, posts_postAborted]
    have hnumbered : ∀ q ∈ ((p.postAborted rx).postAborted tx).posted, q.call < p.calls := by
      have hq := numbered_postAborted h.numbered hrx
      rw [postAborted_eq p rx] at hq ⊢
      exact numbered_postAborted hq fun n hn => (htx n hn).2
    have heq : (p.postAborted rx).postAborted tx = { p with posted := ((p.postAborted rx).postAborted tx).posted } := by
      rw [postAborted_eq (p.postAborted rx), postAborted_eq p]
    rw [heq]
    refine h.empty rfl (by simp) (by simp) (.refl _ _) (fun _ => rfl) (fun n r hr hne => ⟨?_, rfl⟩) hnumbered h.filled
      fun n r hr hrk hopen hnone hfilled hw => .aborted hopen (by simp [hrk]) ?_ hfilled
    · have := hposts n r hr
      rwa [if_neg (hrxe ▸ hne), List.append_nil] at this
    · have := hposts n r hr
      rwa [if_pos (by rw [← hrxe, ← hrk, hw.slot]), hnone] at this
  · exact h

/-- The flush calls the entry of state `k`, whose receive is handed the datagram. -/
theorem mailed_handleRead (h : Mailed p l) (hsound : p.multiplexer.Sound) {k size : Nat} {ec : ErrorCode}
    {rest : List Entry} (hown : (p.states k).owned = true)
    (hf : p.multiplexer.flushing = some ⟨ec, size, .state k :: rest⟩)
    (hp : ({ p with multiplexer := { p.multiplexer with flushing := some ⟨ec, size, rest⟩ } } : Port).handleRead
      k ec size = .ok p') : Mailed p' (p.note .next p' l) := by
  have hpend : p.multiplexer.pending = .state k :: rest := by simp [pending, hf]
  obtain ⟨hreg, hrest⟩ : .state k ∉ p.multiplexer.recvHandlers ∧ .state k ∉ rest := by
    have hnodup := hsound.nodup
    rw [hpend] at hnodup
    have hperm := List.nodup_middle.1 hnodup
    simpa using (List.nodup_cons.1 hperm).1
  have hlinked : p.multiplexer.Linked (.state k) := .inr (by simp [hpend])
  obtain ⟨n, hn⟩ := Option.ne_none_iff_exists'.1 ((h.linked k hlinked).2 hown)
  obtain ⟨r, hr, rfl, -, -, -, hw⟩ := h.waits hn
  obtain ⟨ep, hep⟩ := Option.ne_none_iff_exists'.1 hw.ep
  have hnote : ∀ p' : Port, p.note .next p' l =
      { l with filled := Function.update l.filled n (some ⟨p'.endpoints ep, (p'.states r.state).rxBuffers⟩) } :=
    fun p' => by simp only [note, hpend, List.head?_cons, hn, hep]
  simp only [handleRead, hn, hep] at hp
  split at hp
  · cases hp
  · cases hp
    rw [hnote]
    have hne : ∀ n', (p.states r.state).rxHandler ≠ some n' → n' ≠ n := fun n' hn' heq => hn' (heq ▸ hn)
    refine h.empty rfl (fun _ htx => htx) (fun hs => hs) (steady_next hf fun j hj heq => ?_) (fun hl => ?_)
      (fun n' r' _ hn' => ⟨?_, Function.update_of_ne (hne n' hn') ..⟩) (fun q hq => ?_) (fun n' hn' => ?_)
      fun n' r' hr' hrk hopen hnone _ hw' => ?_
    · cases heq
      exact hj.1 rfl
    · exact absurd hl (not_or.2 ⟨hreg, hrest⟩)
    · have := posts_post p n n' ec (Scatter.copied (p.states r.state).rxBuffers (p.multiplexer.rxBuffer.take size))
      rwa [if_neg (hne n' hn').symm, List.append_nil] at this
    · rcases List.mem_append.1 hq with hq | hq
      · exact h.numbered q hq
      · rw [List.mem_singleton.1 hq]
        exact (h.made n r hr).1
    · have := (h.made n r hr).1
      exact (Function.update_of_ne (by omega) ..).trans (h.filled n' hn')
    · -- The request that waited is `n`, and the datagram being flushed is the first since.
      obtain rfl : n = n' := by
        have := hw'.slot
        rw [hrk, hn] at this
        exact Option.some.inj this
      obtain rfl : r = r' := by simpa [hr] using hr'
      obtain ⟨a, ha, hec, hsource, hdata⟩ := h.flush _ hf
      have hbefore : r.before = l.arrivals.length - 1 := by
        rcases hw.turn with ⟨hmem, -⟩ | ⟨-, hb⟩
        · exact absurd hmem hreg
        · omega
      refine .delivered a hopen (hbefore ▸ ha) ?_ ?_
      · have := posts_post p n n ec (Scatter.copied (p.states r.state).rxBuffers (p.multiplexer.rxBuffer.take size))
        rw [if_pos rfl, hnone, List.nil_append] at this
        refine this.trans ?_
        rw [hw.buffers, hdata, show ec = a.ec from hec]
      · simp only [Function.update_self, post, setState, hw.buffers, hdata, hsource]

theorem mailed_next (h : Mailed p l) (hroster : Roster p) (hsound : p.multiplexer.Sound)
    (hpend : p.multiplexer.pending ≠ []) (hp : p.flushNext = .ok p') : Mailed p' (p.note .next p' l) := by
  obtain ⟨ec, size, e, rest, hf⟩ := flushing_of_pending hpend
  have hpe : p.multiplexer.pending = e :: rest := by simp [pending, hf]
  simp only [flushNext, Except.bind_ok_iff] at hp
  obtain ⟨m, hm, hp⟩ := hp
  obtain ⟨hset, rfl⟩ := next_lists hf hm
  simp only [hf] at hp
  cases e with
  | context =>
    cases hp
    have hnote : ∀ p' : Port, p.note .next p' l = l := fun p' => by simp only [note, hpe, List.head?_cons]
    rw [hnote]
    exact h.loop (steady_next hf fun k _ heq => by cases heq)
  | state k => exact mailed_handleRead h hsound (by rw [← hroster.handler]; exact hset) hf hp

/-- A datagram arrives and is about to be flushed: every request that waits is due it. -/
theorem mailed_arrives (h : Mailed p l) {ec : ErrorCode} {source : Endpoint} {data : List UInt8}
    (hf : p.multiplexer.flushing = none)
    (hf' : m.flushing = some ⟨ec, if ec.isError then 0 else data.length, p.multiplexer.recvHandlers⟩)
    (hreg : m.recvHandlers = []) (hsource : m.rxEndpoint = source) (hdata : m.rxBuffer = data) :
    Mailed { p with multiplexer := m } { l with arrivals := l.arrivals ++ [⟨ec, source, data⟩] } := by
  have hpend := pending_of_idle hf
  have hpend' : m.pending = p.multiplexer.recvHandlers := by rw [pending, hf']; rfl
  have hc : Change p l { p with multiplexer := m } { l with arrivals := l.arrivals ++ [⟨ec, source, data⟩] }
      fun _ => True :=
    { calls := le_rfl
      opened := le_rfl
      arrivals := List.prefix_append _ _
      same := fun k _ => .refl _
      closed := fun _ _ hk => hk
      turn := fun k before _ _ ht => by
        rcases ht with ⟨hmem, rfl⟩ | ⟨hmem, -⟩
        · exact .inr ⟨by rw [hpend']; exact hmem, by simp⟩
        · rw [hpend] at hmem
          cases hmem
      requested := fun _ _ hr => hr
      requests := fun _ _ hr => .inl hr
      untouched := fun _ _ _ _ => ⟨rfl, rfl⟩
      settled := fun _ _ _ _ _ _ _ hk => absurd trivial hk
      slot := fun _ _ hk => absurd trivial hk
      tx := h.tx
      numbered := h.numbered
      filled := h.filled
      linked := fun k hk => by
        refine .inl ⟨trivial, .inl ?_⟩
        have hk : m.Linked (.state k) := hk
        rwa [Linked, hreg, hpend', or_iff_right List.not_mem_nil] at hk
      flush := fun f hff => by
        have hff : m.flushing = some f := hff
        rw [hf'] at hff
        cases hff
        refine ⟨⟨ec, source, data⟩, by simp, rfl, hsource, ?_⟩
        show m.rxBuffer.take (if ec.isError then 0 else data.length) = if ec.isError then [] else data
        rw [hdata]
        split
        · rfl
        · exact List.take_length }
  exact h.change hc

theorem mailed_step {ev : Event} (h : Mailed p l) (hroster : Roster p) (hsound : p.multiplexer.Sound)
    (hen : p.Enabled ev) (hp : p.step ev = .ok p') : Mailed p' (p.note ev p' l) := by
  cases ev with
  | bind =>
    cases hp
    exact mailed_bind h
  | asyncReceiveFrom k ep buffers => exact mailed_asyncReceiveFrom h hen.1 hp
  | asyncSendTo k buffers dst =>
    cases hp
    exact mailed_asyncSendTo h k buffers dst
  | sent s ec size =>
    cases hp
    exact mailed_sent h s ec size
  | sendToSignal => exact mailed_sendToSignal h hp
  | sentEnd =>
    cases hp
    exact mailed_sentEnd h
  | close k =>
    cases hp
    exact mailed_close h k
  | closeLast k =>
    cases hp
    exact (mailed_close h k).apart _ _ _ false
  | setEndpoint v ep =>
    cases hp
    exact h.quiet (fun _ => .refl _) le_rfl rfl (fun _ _ _ => rfl) h.tx h.numbered (.refl _ _)
  | register =>
    simp only [step, Except.bind_ok_iff, Except.pure_ok_iff] at hp
    obtain ⟨m, hm, rfl⟩ := hp
    exact h.loop (steady_register hm _ fun k heq => by cases heq)
  | unlink =>
    cases hp
    exact h.loop (steady_unlink _ _ fun k _ heq => by cases heq)
  | received ec source data =>
    simp only [step, Except.bind_ok_iff, Except.pure_ok_iff] at hp
    obtain ⟨-, -, m, hm, rfl⟩ := hp
    rcases received_cases hen.2 hm with ⟨hf', hreg⟩ | ⟨hf', hreg, hsource, hdata⟩
    · simp only [note, if_pos hf']
      exact h.loop (steady_canceled hen.2 hf' hreg _)
    · have hne : m.flushing ≠ none := by simp [hf']
      simp only [note, if_neg hne]
      exact mailed_arrives h hen.2 hf' hreg hsource hdata
  | next => exact mailed_next h hroster hsound hen.2 hp
  | flushed =>
    simp only [step, Except.bind_ok_iff, Except.pure_ok_iff] at hp
    obtain ⟨m, hm, rfl⟩ := hp
    exact h.loop (steady_flushed hen.2.2 hm _)
  | destroy =>
    cases hp
    exact h.apart p.inFlight p.completing p.notified false

/-! ## Every run -/

theorem loop_sound {ev : Event} (h : p.multiplexer.Sound) (hen : p.Enabled ev) (hp : p.step ev = .ok p') :
    p'.multiplexer.Sound :=
  (loop_step hen hp).invariant Sound (fun _ _ _ hm hok hs => sound_step hm hok hs) h

/-- What every run keeps, with the ledger it has led to. -/
theorem run_mailed {evs : List Event} (h : Run Enabled step {} evs p) :
    Mailed p (record step note {} {} evs) ∧ Roster p ∧ p.multiplexer.Sound := by
  refine h.recorded (fun p l => Mailed p l ∧ Roster p ∧ p.multiplexer.Sound) (fun p l ev p' hp hen hstep => ?_)
    ⟨mailed_init, roster_init, sound_init⟩
  obtain ⟨hmailed, hroster, hsound⟩ := hp
  exact ⟨mailed_step hmailed hroster hsound hen hstep, roster_step hroster hen hstep, loop_sound hsound hen hstep⟩

/-- **Receives are exact.** In every run of a port, every call of `async_receive_from` has its
handler posted exactly once or waits: refused, if the `udp_multiplexer` was closed; aborted, if it
was closed since; and else with the first datagram that arrived after the call, whose sender and
front the caller's endpoint and buffers then hold. A call that waits has its turn, and a receive
of the port is outstanding for it unless a datagram is being handed out. -/
theorem receives_exact {p : Port} {evs : List Event} (h : Run Enabled step {} evs p) :
    (∀ n r, (record step note {} {} evs).requests n = some r → Fate p (record step note {} {} evs) n r) ∧
    ∀ n r, Waits p (record step note {} {} evs) n r →
      p.alive = true ∧ (p.multiplexer.flushing = none → p.multiplexer.udpSocket.receives.length = 1) := by
  obtain ⟨hmailed, hroster, hsound⟩ := run_mailed h
  refine ⟨hmailed.fate, fun n r hw => ⟨(hroster.owned _ hw.owned).2.2, fun hf => ?_⟩⟩
  have hreg : p.multiplexer.recvHandlers ≠ [] := by
    rcases hw.turn with ⟨hmem, -⟩ | ⟨hmem, -⟩
    · exact List.ne_nil_of_mem hmem
    · rw [pending_of_idle hf] at hmem
      cases hmem
  cases hsound.idle hf with
  | receiving c _ hrec => rw [hrec, List.length_singleton]
  | stopped _ _ hnil => exact absurd hnil hreg

/-- One datagram for two `udp_multiplexer`s, the first of which receives again before the second
is handed it: both are handed it, and the second receive of the first waits for the next. -/
theorem receives_exact_two :
    ∃ p, Run Enabled step {}
        [.bind, .bind, .setEndpoint 0 (some default), .asyncReceiveFrom 0 0 [[0]], .asyncReceiveFrom 1 0 [[0], [0, 0]],
          .received .success default [7, 8], .next, .asyncReceiveFrom 0 0 [[0]], .next, .flushed] p ∧
      posts p 0 = [(.success, 1)] ∧ posts p 1 = [(.success, 2)] ∧ posts p 2 = [] ∧
      p.multiplexer.udpSocket.receives.length = 1 := by
  obtain ⟨p, hrun, hopen, h0, h1, h2, hf⟩ := exists_run Enabled step {}
    [.bind, .bind, .setEndpoint 0 (some default), .asyncReceiveFrom 0 0 [[0]], .asyncReceiveFrom 1 0 [[0], [0, 0]],
      .received .success default [7, 8], .next, .asyncReceiveFrom 0 0 [[0]], .next, .flushed]
    (fun p => ((p.states 0).owned = true ∧ (p.states 1).owned = true) ∧ posts p 0 ≠ [] ∧ posts p 1 ≠ [] ∧
      posts p 2 = [] ∧ p.multiplexer.flushing = none) (by decide)
  obtain ⟨hfate, hwaits⟩ := receives_exact hrun
  refine ⟨p, hrun, ?_, ?_, h2, ?_⟩
  · cases hfate 0 ⟨0, true, [[0]], 0⟩ rfl with
    | refused hno => cases hno
    | waiting _ hnil => exact absurd hnil h0
    | aborted _ hno => rw [hopen.1] at hno; cases hno
    | delivered a _ ha hposts =>
      obtain rfl : (⟨.success, default, [7, 8]⟩ : Arrival) = a := Option.some.inj ha
      exact hposts
  · cases hfate 1 ⟨1, true, [[0], [0, 0]], 0⟩ rfl with
    | refused hno => cases hno
    | waiting _ hnil => exact absurd hnil h1
    | aborted _ hno => rw [hopen.2] at hno; cases hno
    | delivered a _ ha hposts =>
      obtain rfl : (⟨.success, default, [7, 8]⟩ : Arrival) = a := Option.some.inj ha
      exact hposts
  · cases hfate 2 ⟨0, true, [[0]], 1⟩ rfl with
    | waiting _ _ _ hw => exact (hwaits _ _ hw).2 hf
    | refused hno => cases hno
    | aborted _ hno => rw [hopen.1] at hno; cases hno
    | delivered a _ _ hposts => rw [h2] at hposts; cases hposts

/-! ## What a port's events rely on -/

/-- A receive is started where none is pending, and a receive of the port completes while its
multiplexer is there; the endpoint objects the event follows are there, and the entry it calls has
its handler. -/
def Relies (p : Port) : Event → Prop
  | .asyncReceiveFrom k _ _ => (p.states k).owned = true → (p.states k).rxHandler = none
  | .sendToSignal => ∀ c ∈ p.completing.head?, p.endpoints c.send.dst ≠ none
  | .received _ _ _ => p.alive = true
  | .next => ∀ k, p.multiplexer.pending.head? = some (.state k) → (p.states k).owned = true ∧
      ∀ ep, (p.states k).rxEp = some ep → p.endpoints ep ≠ none
  | _ => True

theorem signal_ok_iff : (∃ p', p.sendToSignal = .ok p') ↔ p.Relies .sendToSignal := by
  cases hcomp : p.completing with
  | nil => simp [sendToSignal, Relies, hcomp]
  | cons c rest => cases hep : p.endpoints c.send.dst <;> simp [sendToSignal, Relies, hcomp, hep]

theorem receive_ok_iff (hmailed : Mailed p l) (k ep : Nat) (buffers : List (List UInt8)) :
    (∃ p', p.asyncReceiveFrom k ep buffers = .ok p') ↔ p.Relies (.asyncReceiveFrom k ep buffers) := by
  simp only [Relies]
  by_cases hown : (p.states k).owned = true
  · rw [forall_prop_of_true hown]
    constructor
    · intro hok
      obtain ⟨p', hp⟩ := hok
      simp only [asyncReceiveFrom, hown, if_true, Except.bind_ok_iff, Except.require_ok_iff] at hp
      obtain ⟨-, hrx, -⟩ := hp
      exact hrx
    · intro hrx
      have hl : ¬ p.multiplexer.Linked (.state k) := fun hl => (hmailed.linked k hl).2 hown hrx
      have hreg : ∃ m, p.multiplexer.registerRecvHandler (.state k) = .ok m := ⟨_, registerRecvHandler_eq hl⟩
      obtain ⟨m, hm⟩ := hreg
      simp only [asyncReceiveFrom, hown, if_true, Except.bind_ok_iff, Except.require_ok_iff, Except.pure_ok_iff]
      exact ⟨_, (), hrx, m, hm, rfl⟩
  · simp only [asyncReceiveFrom, hown]
    exact ⟨fun _ h => absurd h (by simp), fun _ => ⟨_, rfl⟩⟩

theorem next_ok_iff (hmailed : Mailed p l) (hroster : Roster p) (hpend : p.multiplexer.pending ≠ []) :
    (∃ p', p.flushNext = .ok p') ↔ p.Relies .next := by
  obtain ⟨ec, size, e, rest, hf⟩ := flushing_of_pending hpend
  have hpe : p.multiplexer.pending = e :: rest := by simp [pending, hf]
  simp only [Relies, hpe, List.head?_cons, Option.some.injEq]
  have hpop : ∀ e', p.handlerSet e' = true → e = e' → p.multiplexer.flushNext p.handlerSet =
      .ok { p.multiplexer with flushing := some ⟨ec, size, rest⟩ } := by
    rintro e' he rfl
    simp only [Multiplexer.flushNext, hf, Except.bind_ok_iff, Except.require_ok_iff]
    exact ⟨(), he, rfl⟩
  cases e with
  | context =>
    refine ⟨fun _ k hk => (by cases hk), fun _ => ?_⟩
    simp only [flushNext, hpop _ rfl rfl, Except.ok_bind, hf]
    exact ⟨_, rfl⟩
  | state k =>
    have hlinked := (hmailed.linked k (.inr (by simp [hpe]))).2
    constructor
    · intro hok j hj
      obtain ⟨p', hp⟩ := hok
      cases hj
      simp only [flushNext, Except.bind_ok_iff, hf] at hp
      obtain ⟨m, hm, hp⟩ := hp
      have hown : (p.states k).owned = true := by
        rw [← hroster.handler]
        exact (next_lists hf hm).1
      refine ⟨hown, fun ep hep hnone => ?_⟩
      obtain ⟨n, hn⟩ := Option.ne_none_iff_exists'.1 (hlinked hown)
      simp only [handleRead, hn, hep, hnone] at hp
      cases hp
    · intro hrel
      obtain ⟨hown, hendpoint⟩ := hrel k rfl
      obtain ⟨n, hn⟩ := Option.ne_none_iff_exists'.1 (hlinked hown)
      obtain ⟨r, -, rfl, -, -, -, hw⟩ := hmailed.waits hn
      obtain ⟨ep, hep⟩ := Option.ne_none_iff_exists'.1 hw.ep
      obtain ⟨v, hv⟩ := Option.ne_none_iff_exists'.1 (hendpoint ep hep)
      have hset : p.handlerSet (.state r.state) = true := (hroster.handler _).trans hown
      simp only [flushNext, hpop _ hset rfl, Except.ok_bind, hf, handleRead, hn, hep, hv]
      exact ⟨_, rfl⟩

/-- **What a port relies on.** Whatever is called and completes in whatever order, an event of a
port comes to its end if and only if: a receive is started on an open `udp_multiplexer` with none
pending; the endpoint object a send was given is still there when a slot is called for it; a receive
of the port completes while the multiplexer is there; and the entry a flush calls is that of a
`udp_multiplexer` still open, whose endpoint object is still there. -/
theorem port_ok_iff {p : Port} (h : Reachable Enabled step {} p) {ev : Event} (hen : p.Enabled ev) :
    (∃ p', p.step ev = .ok p') ↔ p.Relies ev := by
  obtain ⟨evs, hrun⟩ := h
  obtain ⟨hmailed, hroster, hsound⟩ := run_mailed hrun
  have hloop : ∀ lev, p.multiplexer.Enabled lev → ∃ m', p.multiplexer.step lev = .ok m' := fun _ => step_ok hsound
  cases ev with
  | bind | asyncSendTo _ _ _ | sent _ _ _ | sentEnd | close _ | closeLast _ | setEndpoint _ _ | unlink | destroy =>
    exact ⟨fun _ => trivial, fun _ => ⟨_, rfl⟩⟩
  | sendToSignal => exact signal_ok_iff
  | next => exact next_ok_iff hmailed hroster hen.2
  | asyncReceiveFrom k ep buffers => exact receive_ok_iff hmailed k ep buffers
  | register =>
    obtain ⟨m, hm⟩ := hloop (.register .context) hen.2
    have hm : p.multiplexer.registerRecvHandler .context = .ok m := hm
    exact ⟨fun _ => trivial, fun _ => ⟨{ p with multiplexer := m }, by simp only [step, hm]; rfl⟩⟩
  | received ec ep data =>
    obtain ⟨m, hm⟩ := hloop (.received ec ep data) hen
    have hm : (p.multiplexer.receiveCompleted ep data).onReceive ec data.length = .ok m := hm
    simp only [step, Except.bind_ok_iff, Except.require_ok_iff, Except.pure_ok_iff, Relies]
    constructor
    · intro hok
      obtain ⟨_, -, ha, -⟩ := hok
      exact ha
    · exact fun ha => ⟨{ p with multiplexer := m }, (), ha, m, hm, rfl⟩
  | flushed =>
    obtain ⟨m, hm⟩ := hloop .flushed hen.2
    have hm : p.multiplexer.flushed = .ok m := hm
    exact ⟨fun _ => trivial, fun _ => ⟨{ p with multiplexer := m }, by simp only [step, hm]; rfl⟩⟩

/-- A datagram is about to be handed to the one receive that waits: that comes to its end, and
would not if the endpoint object had gone. -/
theorem port_ok_iff_endpoint :
    ∃ p, Run Enabled step {}
        [.bind, .setEndpoint 0 (some default), .asyncReceiveFrom 0 0 [[0]], .received .success default [7]] p ∧
      (∃ p', p.step .next = .ok p') ∧
      ∃ q, Run Enabled step p [.setEndpoint 0 none] q ∧ ¬ ∃ q', q.step .next = .ok q' := by
  obtain ⟨p, hrun, hen, hpend, hstate, hep, hdead⟩ := exists_run Enabled step {}
    [.bind, .setEndpoint 0 (some default), .asyncReceiveFrom 0 0 [[0]], .received .success default [7]]
    (fun p => p.Enabled .next ∧ p.multiplexer.pending.head? = some (.state 0) ∧
      ((p.states 0).owned = true ∧ (p.states 0).rxEp = some 0) ∧ p.endpoints 0 ≠ none ∧
      ({ p with endpoints := Function.update p.endpoints 0 none } : Port).Enabled .next) (by decide)
  refine ⟨p, hrun, (port_ok_iff ⟨_, hrun⟩ hen).2 fun k hk => ?_, _, .cons trivial rfl .nil, fun hok => ?_⟩
  · rw [hpend] at hk
    cases hk
    refine ⟨hstate.1, fun ep h => ?_⟩
    rw [hstate.2] at h
    cases h
    exact hep
  · have hrun' := hrun.append (.cons (show p.Enabled (.setEndpoint 0 none) from trivial) rfl .nil)
    exact ((port_ok_iff ⟨_, hrun'⟩ hdead).1 hok 0 hpend).2 0 hstate.2 (by simp)

end AsioUtp.Port
