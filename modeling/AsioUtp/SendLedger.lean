/-
What `async_send_to` is for, and when the code does it.

The ledger is the abstract model: it books every call on an open
`udp_multiplexer` with the buffers and the destination it was given, the
result of its own underlying send, and the outcome its handler is due, which
is that result or `operation_aborted` if the multiplexer was closed first.
`Port` has no such book: it has one handler slot and one buffer list per
state, and the sends in flight refer to their caller's endpoint object. The
two agree as long as a state has at most one send whose completion has not
returned, and the endpoint object still holds its destination whenever a slot
of `on_send_to` is called (`sends_exact`). Two overlapping sends already lose
a handler, and so does a send started by a slot (`overlapping_sends`).
-/
import AsioUtp.UdpMultiplexer

namespace AsioUtp

/-- One call of `async_send_to` on an open `udp_multiplexer`. -/
structure Call where
  state : Nat
  buffers : List (List UInt8)
  dst : Endpoint
  /-- What its own underlying send completed with. -/
  result : Option (ErrorCode × Nat) := none
  /-- What its handler is to be called with, once that is settled. -/
  outcome : Option (ErrorCode × Nat) := none
  deriving Repr, DecidableEq

def Call.complete (c : Call) (ec : ErrorCode) (size : Nat) : Call := { c with result := some (ec, size) }

/-- The completion of its send comes to an end: a call not settled is due the result. -/
def Call.settle (c : Call) : Call := { c with outcome := c.outcome.or c.result }

/-- The state's `udp_multiplexer` is closed: a call not settled is aborted. -/
def Call.abort (k : Nat) (c : Call) : Call :=
  if c.state = k then { c with outcome := c.outcome.or (some (.operationAborted, 0)) } else c

/-- The calls by their number. -/
abbrev Ledger := Nat → Option Call

/-- A port with its ledger. -/
structure Booked where
  port : Port := {}
  ledger : Ledger := fun _ => none

namespace Booked

/-- The ledger after `ev`. -/
def record (b : Booked) : Port.Event → Ledger
  | .asyncSendTo k buffers dst =>
    match (b.port.states k).owned, b.port.endpoints dst with
    | true, some ep => Function.update b.ledger b.port.calls (some { state := k, buffers, dst := ep })
    | _, _ => b.ledger
  | .sent s ec size => Function.update b.ledger s.call ((b.ledger s.call).map (·.complete ec size))
  | .sentEnd =>
    match b.port.completing with
    | [] => b.ledger
    | q :: _ => Function.update b.ledger q.send.call ((b.ledger q.send.call).map Call.settle)
  | .close k | .closeLast k => fun n => (b.ledger n).map (Call.abort k)
  | _ => b.ledger

def Enabled (b : Booked) (ev : Port.Event) : Prop := b.port.Enabled ev

instance (b : Booked) (ev : Port.Event) : Decidable (b.Enabled ev) :=
  inferInstanceAs (Decidable (b.port.Enabled ev))

def step (b : Booked) (ev : Port.Event) : Except Fault Booked := do
  return { port := ← b.port.step ev, ledger := b.record ev }

/-- What the handler of call `n` has been posted with. -/
def posts (p : Port) (n : Nat) : List (ErrorCode × Nat) :=
  (p.posted.filter fun q => q.call = n).map fun q => (q.ec, q.size)

/-- The code does what the ledger says: a handler is posted once, when its outcome is settled
and with it; the outcome is settled once the completion of the underlying send has called its
slots; a call whose underlying send has not completed is in flight; and a notification is about
the send it was raised for. -/
structure Exact (b : Booked) : Prop where
  posted : ∀ n c, b.ledger n = some c → posts b.port n = c.outcome.toList
  settled : ∀ n c, b.ledger n = some c → c.result ≠ none →
    c.outcome ≠ none ∨ ∃ q ∈ b.port.completing, q.send.call = n
  flying : ∀ n c, b.ledger n = some c → c.result = none → ∃ s ∈ b.port.inFlight, s.call = n
  notified : ∀ q ∈ b.port.notified, ∃ c, b.ledger q.call = some c ∧
    q.buffers = c.buffers ∧ q.dst = c.dst ∧ c.result = some (q.ec, q.size)

/-- One send at a time, whose endpoint object still holds the destination when a slot is called. -/
def Serial (b : Booked) : Port.Event → Prop
  | .asyncSendTo k _ _ => ∀ s ∈ b.port.inFlight, s.state ≠ k
  | .sendToSignal =>
    ∀ q ∈ b.port.completing.head?, b.port.endpoints q.send.dst = (b.ledger q.send.call).map Call.dst
  | _ => True

instance (b : Booked) : (ev : Port.Event) → Decidable (b.Serial ev)
  | .asyncSendTo _ _ _ => inferInstanceAs (Decidable (∀ s ∈ b.port.inFlight, _))
  | .sendToSignal => inferInstanceAs (Decidable (∀ q ∈ b.port.completing.head?, _))
  | .bind | .asyncReceiveFrom _ _ _ | .sent _ _ _ | .sentEnd | .close _ | .closeLast _ | .setEndpoint _ _
  | .register | .unlink | .received _ _ _ | .next | .flushed | .destroy => inferInstanceAs (Decidable True)

/-! ## Why one send at a time is enough -/

@[simp] theorem posts_post (p : Port) (n m : Nat) (ec : ErrorCode) (size : Nat) :
    posts (p.post n ec size) m = posts p m ++ if n = m then [(ec, size)] else [] := by
  by_cases h : n = m <;> simp [posts, Port.post, List.filter_append, h]

/-- The slots and the sends in flight of `p` are those the ledger `l` books. -/
structure Books (p : Port) (l : Ledger) : Prop where
  exact : Exact ⟨p, l⟩
  booked : ∀ n c, l n = some c → n < p.calls
  numbered : ∀ q ∈ p.posted, q.call < p.calls
  serial : (p.inFlight.map Send.state).Nodup
  sends : ∀ s ∈ p.inFlight, s.state < p.opened ∧ ∃ c, l s.call = some c ∧ c.state = s.state ∧
    ((∀ q ∈ p.completing, q.send ≠ s) → c.result = none) ∧ (p.states s.state).txBuffers = c.buffers ∧
    (c.outcome = none ↔ (p.states s.state).txHandler = some s.call)
  completing : ∀ q ∈ p.completing, q.send ∈ p.inFlight ∧ ∃ c, l q.send.call = some c ∧ c.result = some (q.ec, q.size)
  nested : (p.completing.map SendCompletion.send).Nodup
  tx : ∀ k n, (p.states k).txHandler = some n → (p.states k).owned = true ∧
    ∃ s ∈ p.inFlight, s.state = k ∧ s.call = n
  rx : ∀ k n, (p.states k).rxHandler = some n → l n = none ∧ n < p.calls
  owned : ∀ k, (p.states k).owned = true → (p.states k).impl = true ∧ k < p.opened ∧ p.alive = true

theorem books_init : Books {} (fun _ => none) where
  exact := ⟨by simp, by simp, by simp, by simp⟩
  booked := by simp
  numbered := by simp
  serial := by simp
  sends := by simp
  completing := by simp
  nested := by simp
  tx := by simp
  rx := by simp
  owned := by simp

/-- At most one send in flight per state: the state names the send. -/
theorem Books.unique {p : Port} {l : Ledger} (h : Books p l) {s t : Send} (hs : s ∈ p.inFlight)
    (ht : t ∈ p.inFlight) (hst : s.state = t.state) : s = t :=
  List.inj_on_of_nodup_map h.serial hs ht hst

theorem Books.quiet {p : Port} {l : Ledger} (h : Books p l) (m : Multiplexer Entry)
    (endpoints : Nat → Option Endpoint) : Books { p with multiplexer := m, endpoints } l where
  exact := ⟨h.exact.posted, h.exact.settled, h.exact.flying, h.exact.notified⟩
  booked := h.booked
  numbered := h.numbered
  serial := h.serial
  sends := h.sends
  completing := h.completing
  nested := h.nested
  tx := h.tx
  rx := h.rx
  owned := h.owned

theorem Books.release {p : Port} {l : Ledger} (h : Books p l) (k : Nat) : Books (p.release k) l := by
  unfold Port.release
  split
  · exact h
  · exact h.quiet _ _

theorem Books.post {p : Port} {l : Ledger} (h : Books p l) {n size : Nat} {ec : ErrorCode} (hn : l n = none)
    (hlt : n < p.calls) : Books (p.post n ec size) l := by
  refine ⟨⟨fun m c hm => ?_, h.exact.settled, h.exact.flying, h.exact.notified⟩, h.booked, fun q hq => ?_,
    h.serial, h.sends, h.completing, h.nested, h.tx, h.rx, h.owned⟩
  · have hne : n ≠ m := fun hnm => by
      subst hnm
      exact absurd (hn.symm.trans hm) (by simp)
    simpa [posts_post, hne] using h.exact.posted m c hm
  · rcases List.mem_append.1 hq with hq | hq
    · exact h.numbered q hq
    · rw [List.mem_singleton.1 hq]
      exact hlt

/-- The handler slots of state `k` when it is `s`. -/
structure Slots (p : Port) (l : Ledger) (k : Nat) (s : State) : Prop where
  tx : ∀ n, s.txHandler = some n → s.owned = true ∧ ∃ t ∈ p.inFlight, t.state = k ∧ t.call = n
  rx : ∀ n, s.rxHandler = some n → l n = none ∧ n < p.calls
  owned : s.owned = true → s.impl = true ∧ k < p.opened ∧ p.alive = true

/-- One state has changed: its slots are to be looked at, and the others' as far as the rest has changed. -/
theorem Books.of_update {p : Port} {l : Ledger} {states : Nat → State} {k : Nat} {s : State}
    (hst : p.states = Function.update states k s) (exact : Exact ⟨p, l⟩) (booked : ∀ n c, l n = some c → n < p.calls)
    (numbered : ∀ q ∈ p.posted, q.call < p.calls) (serial : (p.inFlight.map Send.state).Nodup)
    (sends : ∀ t ∈ p.inFlight, t.state < p.opened ∧ ∃ c, l t.call = some c ∧ c.state = t.state ∧
      ((∀ q ∈ p.completing, q.send ≠ t) → c.result = none) ∧
      (p.states t.state).txBuffers = c.buffers ∧ (c.outcome = none ↔ (p.states t.state).txHandler = some t.call))
    (completing : ∀ q ∈ p.completing, q.send ∈ p.inFlight ∧
      ∃ c, l q.send.call = some c ∧ c.result = some (q.ec, q.size))
    (nested : (p.completing.map SendCompletion.send).Nodup)
    (hself : Slots p l k s) (hother : ∀ j, j ≠ k → Slots p l j (states j)) : Books p l := by
  have hall : ∀ j, Slots p l j (p.states j) := by
    rw [hst]
    exact (Function.forall_update_iff states fun j t => Slots p l j t).2 ⟨hself, hother⟩
  exact ⟨exact, booked, numbered, serial, sends, completing, nested, fun j => (hall j).tx, fun j => (hall j).rx,
    fun j => (hall j).owned⟩

theorem Books.setState {p : Port} {l : Ledger} (h : Books p l) {k : Nat} {s : State}
    (hown : s.owned = (p.states k).owned) (himpl : s.impl = (p.states k).impl)
    (htx : s.txHandler = (p.states k).txHandler) (hbuf : s.txBuffers = (p.states k).txBuffers)
    (hrx : ∀ n, s.rxHandler = some n → l n = none ∧ n < p.calls) : Books (p.setState k s) l := by
  refine .of_update rfl ⟨h.exact.posted, h.exact.settled, h.exact.flying, h.exact.notified⟩ h.booked h.numbered
    h.serial (fun t ht => ?_) h.completing h.nested ⟨?_, hrx, ?_⟩ fun j _ => ⟨h.tx j, h.rx j, h.owned j⟩
  · obtain ⟨hlt, c, h1, h2, h3, h4, h5⟩ := h.sends t ht
    refine ⟨hlt, c, h1, h2, h3, ?_⟩
    by_cases htk : t.state = k
    · subst htk
      simp only [Port.setState, Function.update_self, hbuf, htx]
      exact ⟨h4, h5⟩
    · simp only [Port.setState, Function.update_of_ne htk]
      exact ⟨h4, h5⟩
  · rw [htx, hown]
    exact h.tx k
  · rw [hown, himpl]
    exact h.owned k

theorem Books.call {p : Port} {l : Ledger} (h : Books p l) : Books { p with calls := p.calls + 1 } l :=
  ⟨⟨h.exact.posted, h.exact.settled, h.exact.flying, h.exact.notified⟩,
    fun n c hn => Nat.lt_succ_of_lt (h.booked n c hn), fun q hq => Nat.lt_succ_of_lt (h.numbered q hq), h.serial,
    h.sends, h.completing, h.nested, h.tx, fun k n hn => ⟨(h.rx k n hn).1, Nat.lt_succ_of_lt (h.rx k n hn).2⟩, h.owned⟩

theorem Books.unbooked {p : Port} {l : Ledger} (h : Books p l) : l p.calls = none := by
  cases hl : l p.calls with
  | none => rfl
  | some c => exact absurd (h.booked _ _ hl) (by omega)

theorem posts_unbooked {p : Port} {l : Ledger} (h : Books p l) : posts p p.calls = [] := by
  simp only [posts, List.map_eq_nil_iff, List.filter_eq_nil_iff, decide_eq_true_eq]
  intro q hq heq
  have := h.numbered q hq
  omega

/-! ## The steps -/

theorem books_bind {p : Port} {l : Ledger} (h : Books p l) (ha : p.alive = true) : Books p.bind l := by
  refine .of_update rfl ⟨h.exact.posted, h.exact.settled, h.exact.flying, h.exact.notified⟩ h.booked h.numbered
    h.serial (fun t ht => ?_) h.completing h.nested ⟨by simp, by simp, fun _ => ⟨rfl, Nat.lt_succ_self _, ha⟩⟩
    fun j _ => ⟨h.tx j, h.rx j, fun hj => ?_⟩
  · obtain ⟨hlt, hc⟩ := h.sends t ht
    have hne : t.state ≠ p.opened := by omega
    simp only [Port.bind, Port.setState, Function.update_of_ne hne]
    exact ⟨Nat.lt_succ_of_lt hlt, hc⟩
  · obtain ⟨h1, h2, h3⟩ := h.owned j hj
    exact ⟨h1, Nat.lt_succ_of_lt h2, h3⟩

theorem books_asyncReceiveFrom {p p' : Port} {l : Ledger} {k ep : Nat} {buffers : List (List UInt8)}
    (h : Books p l) (hp : p.asyncReceiveFrom k ep buffers = .ok p') : Books p' l := by
  simp only [Port.asyncReceiveFrom] at hp
  split at hp
  · simp only [Except.bind_ok_iff, Except.require_ok_iff, Except.pure_ok_iff] at hp
    obtain ⟨-, -, m, -, rfl⟩ := hp
    have hset := h.call.setState (k := k)
      (s := { p.states k with rxBuffers := buffers, rxEp := some ep, rxHandler := some p.calls }) rfl rfl rfl rfl
      fun n hn => by cases hn; exact ⟨h.unbooked, Nat.lt_succ_self _⟩
    exact hset.quiet _ _
  · cases hp
    exact h.call.post h.unbooked (Nat.lt_succ_self _)

theorem update_booked {l : Ledger} {n m : Nat} {c d : Call} (h : Function.update l n (some c) m = some d) :
    m = n ∧ d = c ∨ m ≠ n ∧ l m = some d := by
  by_cases hmn : m = n
  · subst hmn
    rw [Function.update_self] at h
    exact .inl ⟨rfl, by simpa using h.symm⟩
  · rw [Function.update_of_ne hmn] at h
    exact .inr ⟨hmn, h⟩

theorem exact_send {p p' : Port} {l : Ledger} (h : Books p l) {c : Call} {s : Send} (hout : c.outcome = none)
    (hres : c.result = none) (hcall : s.call = p.calls) (hposted : p'.posted = p.posted)
    (hfl : p'.inFlight = p.inFlight ++ [s]) (hcomp : p'.completing = p.completing)
    (hnot : p'.notified = p.notified) : Exact ⟨p', Function.update l p.calls (some c)⟩ := by
  refine ⟨fun n d hn => ?_, fun n d hn hd => ?_, fun n d hn hd => ?_, fun q hq => ?_⟩
  · have hposts : posts p' n = posts p n := by rw [posts, posts, hposted]
    show posts p' n = _
    rw [hposts]
    rcases update_booked hn with ⟨rfl, rfl⟩ | ⟨-, hn⟩
    · rw [posts_unbooked h, hout]
      rfl
    · exact h.exact.posted n d hn
  · rcases update_booked hn with ⟨-, rfl⟩ | ⟨-, hn⟩
    · exact absurd hres hd
    · show d.outcome ≠ none ∨ ∃ q ∈ p'.completing, q.send.call = n
      rw [hcomp]
      exact h.exact.settled n d hn hd
  · show ∃ t ∈ p'.inFlight, t.call = n
    rw [hfl]
    rcases update_booked hn with ⟨rfl, -⟩ | ⟨-, hn⟩
    · exact ⟨s, by simp, hcall⟩
    · obtain ⟨t, ht, htn⟩ := h.exact.flying n d hn hd
      exact ⟨t, List.mem_append_left _ ht, htn⟩
  · have hq : q ∈ p.notified := by rw [← hnot]; exact hq
    obtain ⟨d, hd, hrest⟩ := h.exact.notified q hq
    have hlt := h.booked q.call d hd
    exact ⟨d, (Function.update_of_ne (by omega) ..).trans hd, hrest⟩

theorem books_send {p : Port} {l : Ledger} {k dst : Nat} {buffers : List (List UInt8)} {ep : Endpoint}
    (h : Books p l) (hown : (p.states k).owned = true) (hserial : ∀ s ∈ p.inFlight, s.state ≠ k) :
    Books (p.asyncSendTo k buffers dst)
      (Function.update l p.calls (some { state := k, buffers, dst := ep })) := by
  obtain ⟨himpl, hlt, halive⟩ := h.owned k hown
  unfold Port.asyncSendTo
  dsimp only
  rw [if_pos hown]
  have hfresh : ∀ n, n < p.calls → Function.update l p.calls (some { state := k, buffers, dst := ep }) n = l n :=
    fun n hn => Function.update_of_ne (by omega) ..
  refine .of_update rfl (exact_send h rfl rfl rfl rfl rfl rfl rfl) (fun n d hn => ?_)
    (fun q hq => Nat.lt_succ_of_lt (h.numbered q hq)) ?_ (fun t ht => ?_) (fun q hq => ?_) h.nested
    ⟨fun n hn => ?_, fun n hn => ?_, fun _ => ⟨himpl, hlt, halive⟩⟩
    fun j _ => ⟨fun n hn => ?_, fun n hn => ?_, h.owned j⟩
  · show n < p.calls + 1
    rcases update_booked hn with ⟨rfl, -⟩ | ⟨-, hn⟩
    · omega
    · have := h.booked n d hn
      omega
  · show ((p.inFlight ++ [(⟨p.calls, k, dst⟩ : Send)]).map Send.state).Nodup
    rw [List.map_append, List.nodup_append]
    refine ⟨h.serial, by simp, fun a ha b hb => ?_⟩
    obtain ⟨s, hs, rfl⟩ := List.mem_map.1 ha
    simp only [List.map_cons, List.map_nil, List.mem_singleton] at hb
    rw [hb]
    exact hserial s hs
  · rcases List.mem_append.1 ht with ht | ht
    · obtain ⟨h1, d, h2, h3⟩ := h.sends t ht
      refine ⟨h1, d, (hfresh _ (h.booked _ d h2)).trans h2, ?_⟩
      simp only [Port.setState, Function.update_of_ne (hserial t ht)]
      exact h3
    · rw [List.mem_singleton.1 ht]
      refine ⟨hlt, _, Function.update_self .., rfl, fun _ => rfl, ?_⟩
      simp [Port.setState]
  · obtain ⟨hmem, d, hd, hres⟩ := h.completing q hq
    exact ⟨List.mem_append_left _ hmem, d, (hfresh _ (h.booked _ d hd)).trans hd, hres⟩
  · cases hn
    exact ⟨hown, ⟨p.calls, k, dst⟩, by simp, rfl, rfl⟩
  · obtain ⟨h1, h2⟩ := h.rx k n hn
    exact ⟨(hfresh n h2).trans h1, Nat.lt_succ_of_lt h2⟩
  · obtain ⟨h1, s, hs, h2⟩ := h.tx j n hn
    exact ⟨h1, s, List.mem_append_left _ hs, h2⟩
  · obtain ⟨h1, h2⟩ := h.rx j n hn
    exact ⟨(hfresh n h2).trans h1, Nat.lt_succ_of_lt h2⟩

/-- Every other send in flight is of another state and of another call. -/
theorem Books.others {p : Port} {l : Ledger} (h : Books p l) {s t : Send} (hs : s ∈ p.inFlight)
    (ht : t ∈ p.inFlight.erase s) : t ∈ p.inFlight ∧ t.state ≠ s.state ∧ t.call ≠ s.call := by
  have hnodup : p.inFlight.Nodup := h.serial.of_map
  obtain ⟨hne, ht⟩ := hnodup.mem_erase_iff.1 ht
  have hst : t.state ≠ s.state := fun hst => hne (h.unique ht hs hst)
  refine ⟨ht, hst, fun hcall => hst ?_⟩
  obtain ⟨-, c, hc, hcs, -⟩ := h.sends s hs
  obtain ⟨-, d, hd, hdt, -⟩ := h.sends t ht
  rw [hcall, hc] at hd
  cases hd
  rw [← hdt, hcs]

/-- What the ledger has of a call before and after its send is done with. -/
structure Finished (c c' : Call) : Prop where
  buffers : c'.buffers = c.buffers
  dst : c'.dst = c.dst
  kept : c.result ≠ none → c'.result = c.result
  result : c'.result ≠ none
  outcome : c'.outcome ≠ none

theorem exact_finish {p p' : Port} {l : Ledger} {s : Send} {c c' : Call} (h : Books p l)
    (hc : l s.call = some c) (hfin : Finished c c') (hfl : p'.inFlight = p.inFlight.erase s)
    (hcomp : ∀ q ∈ p.completing, q.send ≠ s → q ∈ p'.completing)
    (hposts : ∀ n, posts p' n = if n = s.call then c'.outcome.toList else posts p n)
    (hnot : p'.notified = p.notified) : Exact ⟨p', Function.update l s.call (some c')⟩ := by
  refine ⟨fun n d hn => ?_, fun n d hn hd => ?_, fun n d hn hd => ?_, fun q hq => ?_⟩
  · refine (hposts n).trans ?_
    rcases update_booked hn with ⟨rfl, rfl⟩ | ⟨hne, hn⟩
    · rw [if_pos rfl]
    · rw [if_neg hne]
      exact h.exact.posted n d hn
  · rcases update_booked hn with ⟨-, rfl⟩ | ⟨hne, hn⟩
    · exact .inl hfin.outcome
    · refine (h.exact.settled n d hn hd).imp_right fun hq => ?_
      obtain ⟨q, hq, hqn⟩ := hq
      exact ⟨q, hcomp q hq fun hqs => hne (by rw [← hqn, hqs]), hqn⟩
  · rcases update_booked hn with ⟨-, rfl⟩ | ⟨hne, hn⟩
    · exact absurd hd hfin.result
    · obtain ⟨t, ht, htn⟩ := h.exact.flying n d hn hd
      show ∃ t ∈ p'.inFlight, t.call = n
      rw [hfl]
      refine ⟨t, h.serial.of_map.mem_erase_iff.2 ⟨fun hts => hne ?_, ht⟩, htn⟩
      rw [← htn, hts]
  · have hq : q ∈ p.notified := by rw [← hnot]; exact hq
    obtain ⟨d, hd, h1, h2, h3⟩ := h.exact.notified q hq
    have hd : l q.call = some d := hd
    by_cases hqs : q.call = s.call
    · rw [hqs, hc] at hd
      cases hd
      refine ⟨c', by rw [hqs]; exact Function.update_self .., h1.trans hfin.buffers.symm, h2.trans hfin.dst.symm, ?_⟩
      rw [hfin.kept (by simp [h3]), h3]
    · exact ⟨d, (Function.update_of_ne hqs ..).trans hd, h1, h2, h3⟩

-- The two facts about an entry that is booked anew, whatever is noted in it.
theorem Books.update_rx {p : Port} {l : Ledger} (h : Books p l) {n : Nat} {c : Call} (hc : l n = some c) (c' : Call)
    (k m : Nat) (hm : (p.states k).rxHandler = some m) : Function.update l n (some c') m = none ∧ m < p.calls := by
  obtain ⟨hnone, hlt⟩ := h.rx k m hm
  have hne : m ≠ n := fun hmn => by
    rw [hmn, hc] at hnone
    cases hnone
  exact ⟨(Function.update_of_ne hne ..).trans hnone, hlt⟩

theorem Books.update_lt {p : Port} {l : Ledger} (h : Books p l) {n : Nat} {c : Call} (hc : l n = some c) (c' : Call)
    (m : Nat) (d : Call) (hm : Function.update l n (some c') m = some d) : m < p.calls := by
  rcases update_booked hm with ⟨rfl, -⟩ | ⟨-, hm⟩
  · exact h.booked _ _ hc
  · exact h.booked m d hm

/-- The send `s` of call `c` is done with, and `C` are the completions that go on: what is posted by
then decides whether the books stay right. -/
theorem books_finish {p : Port} {l : Ledger} {s : Send} {c c' : Call} {P : List Posted} {C : List SendCompletion}
    (h : Books p l) (hs : s ∈ p.inFlight) (hc : l s.call = some c) (hfin : Finished c c')
    (hsub : C.Sublist p.completing) (hC : ∀ q ∈ p.completing, q ∈ C ↔ q.send ≠ s)
    (hP : ∀ n, posts { p with posted := P } n = if n = s.call then c'.outcome.toList else posts p n)
    (hlt : ∀ q ∈ P, q.call < p.calls) :
    Books { p with
        inFlight := p.inFlight.erase s, completing := C, posted := P
        states := Function.update p.states s.state { p.states s.state with txHandler := none } }
      (Function.update l s.call (some c')) := by
  have hrx := h.update_rx hc c'
  have hmem : ∀ t ∈ p.inFlight, t ≠ s → t ∈ p.inFlight.erase s := fun t ht hne =>
    h.serial.of_map.mem_erase_iff.2 ⟨hne, ht⟩
  refine .of_update rfl (exact_finish h hc hfin rfl (fun q hq hqs => (hC q hq).2 hqs) hP rfl) (h.update_lt hc c') hlt
    (h.serial.sublist (List.erase_sublist.map _)) (fun t ht => ?_) (fun q hq => ?_)
    (h.nested.sublist (hsub.map _)) ⟨by simp, hrx _, h.owned _⟩ fun j hj => ⟨fun n hn => ?_, hrx j, h.owned j⟩
  · obtain ⟨ht, hst, hcall⟩ := h.others hs ht
    obtain ⟨h1, d, h2, h3, h4, h5⟩ := h.sends t ht
    refine ⟨h1, d, (Function.update_of_ne hcall ..).trans h2, h3, fun hnot => h4 fun q hq hqt => ?_, ?_⟩
    · exact hnot q ((hC q hq).2 fun hqs => hst (by rw [← hqt, hqs])) hqt
    · dsimp only
      rw [Function.update_of_ne hst]
      exact h5
  · obtain ⟨hq', d, hd, hres⟩ := h.completing q (hsub.subset hq)
    have hne : q.send ≠ s := (hC q (hsub.subset hq)).1 hq
    have hcall : q.send.call ≠ s.call := (h.others hs (hmem _ hq' hne)).2.2
    exact ⟨hmem _ hq' hne, d, (Function.update_of_ne hcall ..).trans hd, hres⟩
  · obtain ⟨h1, t, ht, htj, htn⟩ := h.tx j n hn
    exact ⟨h1, t, hmem t ht fun hts => hj (by rw [← htj, hts]), htj, htn⟩

/-- Nothing is left to post for a send whose `udp_multiplexer` has been closed. -/
theorem books_finish_settled {p : Port} {l : Ledger} {s : Send} {c c' : Call} {C : List SendCompletion} (h : Books p l)
    (hs : s ∈ p.inFlight) (hc : l s.call = some c) (hfin : Finished c c') (hout : c'.outcome = c.outcome)
    (hsub : C.Sublist p.completing) (hC : ∀ q ∈ p.completing, q ∈ C ↔ q.send ≠ s)
    (htx : (p.states s.state).txHandler = none) (ec : ErrorCode) (size : Nat) :
    Books (({ p with completing := C } : Port).finishSend s ec size) (Function.update l s.call (some c')) := by
  have hsame : Function.update p.states s.state { p.states s.state with txHandler := none } = p.states := by
    rw [show ({ p.states s.state with txHandler := none } : State) = p.states s.state by rw [← htx],
      Function.update_eq_self]
  have hP : ∀ n, posts p n = if n = s.call then c'.outcome.toList else posts p n := by
    intro n
    split
    · next hn => rw [hn, hout, h.exact.posted s.call c hc]
    · rfl
  have hfinish := books_finish (P := p.posted) h hs hc hfin hsub hC hP h.numbered
  rw [hsame] at hfinish
  simp only [Port.finishSend, Port.onSent, htx]
  exact hfinish.release _

/-- The result of a call comes with the completion of its send, and no notification has had it before. -/
theorem exact_result {p : Port} {l : Ledger} {s : Send} {c : Call} (h : Books p l) (hc : l s.call = some c)
    (hnone : c.result = none) (ec : ErrorCode) (size : Nat) :
    Exact ⟨{ p with completing := ⟨s, ec, size⟩ :: p.completing },
      Function.update l s.call (some (c.complete ec size))⟩ := by
  refine ⟨fun n d hn => ?_, fun n d hn hd => ?_, fun n d hn hd => ?_, fun q hq => ?_⟩
  · rcases update_booked hn with ⟨rfl, rfl⟩ | ⟨-, hn⟩
    · exact h.exact.posted _ c hc
    · exact h.exact.posted n d hn
  · rcases update_booked hn with ⟨rfl, rfl⟩ | ⟨-, hn⟩
    · exact .inr ⟨⟨s, ec, size⟩, List.mem_cons_self, rfl⟩
    · refine (h.exact.settled n d hn hd).imp_right fun hq => ?_
      obtain ⟨q, hq, hqn⟩ := hq
      exact ⟨q, List.mem_cons_of_mem _ hq, hqn⟩
  · rcases update_booked hn with ⟨rfl, rfl⟩ | ⟨-, hn⟩
    · cases hd
    · exact h.exact.flying n d hn hd
  · obtain ⟨d, hd, h1⟩ := h.exact.notified q hq
    have hd : l q.call = some d := hd
    have hne : q.call ≠ s.call := fun hqs => by
      rw [hqs, hc] at hd
      cases hd
      rw [hnone] at h1
      exact absurd h1.2.2 (by simp)
    exact ⟨d, (Function.update_of_ne hne ..).trans hd, h1⟩

theorem books_result {p : Port} {l : Ledger} {s : Send} {c : Call} (h : Books p l) (hs : s ∈ p.inFlight)
    (hnew : ∀ q ∈ p.completing, q.send ≠ s) (hc : l s.call = some c) (ec : ErrorCode) (size : Nat) :
    Books { p with completing := ⟨s, ec, size⟩ :: p.completing }
      (Function.update l s.call (some (c.complete ec size))) := by
  obtain ⟨hlt, d, hd, hst, hres, hbuf, hout⟩ := h.sends s hs
  obtain rfl : c = d := by simpa [hc] using hd
  have hcall : ∀ t ∈ p.inFlight, t ≠ s → t.call ≠ s.call := fun t ht hts =>
    (h.others hs (h.serial.of_map.mem_erase_iff.2 ⟨hts, ht⟩)).2.2
  refine ⟨exact_result h hc (hres hnew) ec size, h.update_lt hc _, h.numbered, h.serial, fun t ht => ?_,
    fun q hq => ?_, ?_, h.tx, h.update_rx hc _, h.owned⟩
  · by_cases hts : t = s
    · subst hts
      exact ⟨hlt, _, Function.update_self .., hst, fun hno => absurd rfl (hno _ List.mem_cons_self), hbuf, hout⟩
    · obtain ⟨h1, d, h2, h3, h4, h5⟩ := h.sends t ht
      exact ⟨h1, d, (Function.update_of_ne (hcall t ht hts) ..).trans h2, h3,
        fun hno => h4 fun q hq => hno q (List.mem_cons_of_mem _ hq), h5⟩
  · rcases List.mem_cons.1 hq with rfl | hq
    · exact ⟨hs, _, Function.update_self .., rfl⟩
    · obtain ⟨hmem, d, hd, hd'⟩ := h.completing q hq
      exact ⟨hmem, d, (Function.update_of_ne (hcall _ hmem (hnew q hq)) ..).trans hd, hd'⟩
  · refine List.nodup_cons.2 ⟨fun hmem => ?_, h.nested⟩
    obtain ⟨q, hq, hqs⟩ := List.mem_map.1 hmem
    exact hnew q hq hqs

theorem books_sent {p : Port} {l : Ledger} {s : Send} {ec : ErrorCode} {size : Nat} (h : Books p l)
    (hs : s ∈ p.inFlight) (hnew : ∀ q ∈ p.completing, q.send ≠ s) :
    Books (p.sendCompleted s ec size) (Function.update l s.call ((l s.call).map (·.complete ec size))) := by
  obtain ⟨-, c, hc, -, hres, -, hout⟩ := h.sends s hs
  rw [hc, Option.map_some]
  unfold Port.sendCompleted
  split
  · exact books_result h hs hnew hc ec size
  · next hdead =>
    have htx : (p.states s.state).txHandler = none := by
      by_contra hsome
      obtain ⟨n, hn⟩ := Option.ne_none_iff_exists'.1 hsome
      exact hdead (h.owned _ (h.tx _ n hn).1).2.2
    have hsettled : c.outcome ≠ none := fun hnone => by simp [hout.1 hnone] at htx
    have hfin : Finished c (c.complete ec size) :=
      ⟨rfl, rfl, fun hsome => absurd (hres hnew) hsome, by simp [Call.complete], hsettled⟩
    exact books_finish_settled h hs hc hfin rfl (List.Sublist.refl _)
      (fun q hq => ⟨fun _ => hnew q hq, fun _ => hq⟩) htx _ _

theorem books_sendToSignal {p p' : Port} {l : Ledger} (h : Books p l)
    (hdst : ∀ q ∈ p.completing.head?, p.endpoints q.send.dst = (l q.send.call).map Call.dst)
    (hp : p.sendToSignal = .ok p') : Books p' l := by
  unfold Port.sendToSignal at hp
  split at hp
  · cases hp
    exact h
  · next q rest hcomp =>
    have hq : q ∈ p.completing := by simp [hcomp]
    obtain ⟨hmem, c, hc, hres⟩ := h.completing q hq
    obtain ⟨-, d, hd, -, -, hbuf, -⟩ := h.sends q.send hmem
    obtain rfl : c = d := by simpa [hc] using hd
    split at hp
    · cases hp
    · next dst hep =>
      cases hp
      have hdst : dst = c.dst := by
        have := hdst q (by simp [hcomp])
        simpa [hep, hc] using this
      refine ⟨⟨h.exact.posted, h.exact.settled, h.exact.flying, fun r hr => ?_⟩, h.booked, h.numbered, h.serial,
        h.sends, h.completing, h.nested, h.tx, h.rx, h.owned⟩
      rcases List.mem_append.1 hr with hr | hr
      · exact h.exact.notified r hr
      · rw [List.mem_singleton.1 hr]
        exact ⟨c, hc, hbuf, hdst, hres⟩

theorem books_sentEnd {p : Port} {l : Ledger} {q : SendCompletion} {rest : List SendCompletion} (h : Books p l)
    (hcomp : p.completing = q :: rest) :
    Books p.onSentEnd (Function.update l q.send.call ((l q.send.call).map Call.settle)) := by
  have hq : q ∈ p.completing := by simp [hcomp]
  obtain ⟨hs, c, hc, hres⟩ := h.completing q hq
  obtain ⟨-, d, hd, -, -, -, hout⟩ := h.sends q.send hs
  obtain rfl : c = d := by simpa [hc] using hd
  have hposted := h.exact.posted q.send.call c hc
  have hfin : Finished c c.settle :=
    ⟨rfl, rfl, fun _ => rfl, by simp [Call.settle, hres], by cases ho : c.outcome <;> simp [Call.settle, hres, ho]⟩
  have hsub : rest.Sublist p.completing := by rw [hcomp]; exact List.sublist_cons_self _ _
  have hC : ∀ r ∈ p.completing, r ∈ rest ↔ r.send ≠ q.send := by
    have hnested := h.nested
    rw [hcomp, List.map_cons, List.nodup_cons] at hnested
    intro r hr
    refine ⟨fun hr heq => hnested.1 (heq ▸ List.mem_map_of_mem hr), fun hne => ?_⟩
    rw [hcomp] at hr
    exact (List.mem_cons.1 hr).resolve_left fun heq => hne (by rw [heq])
  rw [hc, Option.map_some]
  simp only [Port.onSentEnd, hcomp]
  cases htx : (p.states q.send.state).txHandler with
  | none =>
    -- The multiplexer was closed before the slots had returned.
    obtain ⟨o, ho⟩ := Option.ne_none_iff_exists'.1 fun hnone : c.outcome = none => by simp [hout.1 hnone] at htx
    exact books_finish_settled h hs hc hfin (by simp [Call.settle, ho]) hsub hC htx _ _
  | some n =>
    obtain ⟨-, t, ht, hts, rfl⟩ := h.tx _ _ htx
    obtain rfl : t = q.send := h.unique ht hs hts
    have hnone : c.outcome = none := hout.2 htx
    simp only [Port.finishSend, Port.onSent, htx]
    refine Books.release ?_ _
    refine books_finish (P := p.posted ++ [⟨q.send.call, q.ec, q.size⟩]) h hs hc hfin hsub hC (fun n => ?_)
      (fun r hr => ?_)
    · refine (posts_post p q.send.call n q.ec q.size).trans ?_
      by_cases hn : n = q.send.call
      · subst hn
        rw [hposted]
        simp [Call.settle, hnone, hres]
      · simp [hn, Ne.symm hn]
    · rcases List.mem_append.1 hr with hr | hr
      · exact h.numbered r hr
      · rw [List.mem_singleton.1 hr]
        exact h.booked _ _ hc

/-- The handler of a call not settled is in the slot of its state. -/
theorem Books.due {p : Port} {l : Ledger} (h : Books p l) {n : Nat} {c : Call} (hn : l n = some c)
    (hc : c.outcome = none) : (p.states c.state).txHandler = some n := by
  obtain ⟨s, hs, rfl⟩ : ∃ s ∈ p.inFlight, s.call = n := by
    by_cases hres : c.result = none
    · exact h.exact.flying n c hn hres
    · obtain ⟨q, hq, hqn⟩ := (h.exact.settled n c hn hres).resolve_left fun hsome => hsome hc
      exact ⟨q.send, (h.completing q hq).1, hqn⟩
  obtain ⟨-, d, hd, hst, -, -, hout⟩ := h.sends s hs
  obtain rfl : c = d := by simpa [hn] using hd
  rw [hst]
  exact hout.1 hc

theorem Books.slot {p : Port} {l : Ledger} (h : Books p l) {k n : Nat} (hk : (p.states k).txHandler = some n) :
    ∃ c, l n = some c ∧ c.state = k ∧ c.outcome = none := by
  obtain ⟨-, s, hs, rfl, rfl⟩ := h.tx k n hk
  obtain ⟨-, c, hc, hst, -, -, hout⟩ := h.sends s hs
  exact ⟨c, hc, hst, hout.2 hk⟩

theorem abort_settled {k : Nat} {c : Call} (h : c.state = k → c.outcome ≠ none) : c.abort k = c := by
  unfold Call.abort
  split
  · next hk =>
    obtain ⟨o, ho⟩ := Option.ne_none_iff_exists'.1 (h hk)
    obtain ⟨st, bufs, dst, res, out⟩ := c
    simp_all
  · rfl

theorem abort_fields (k : Nat) (c : Call) :
    (c.abort k).state = c.state ∧ (c.abort k).buffers = c.buffers ∧ (c.abort k).dst = c.dst ∧
      (c.abort k).result = c.result := by
  unfold Call.abort
  split <;> exact ⟨rfl, rfl, rfl, rfl⟩

theorem Books.postAborted {p : Port} {l : Ledger} (h : Books p l) {o : Option Nat}
    (ho : ∀ n, o = some n → l n = none ∧ n < p.calls) : Books (p.postAborted o) l := by
  cases o with
  | none => exact h
  | some n => exact h.post (ho n rfl).1 (ho n rfl).2

theorem posts_close {p : Port} {l : Ledger} (h : Books p l) {k n : Nat} {c : Call} (hn : l n = some c) :
    posts (p.postAborted (p.states k).txHandler) n = (c.abort k).outcome.toList := by
  have hposted := h.exact.posted n c hn
  by_cases hdue : c.state = k ∧ c.outcome = none
  · obtain ⟨rfl, hout⟩ := hdue
    rw [h.due hn hout]
    simp only [Port.postAborted, posts_post, if_true]
    rw [hposted]
    simp [Call.abort, hout]
  · rw [abort_settled fun hk hout => hdue ⟨hk, hout⟩]
    cases htx : (p.states k).txHandler with
    | none => exact hposted
    | some m =>
      obtain ⟨d, hd, hdk, hdout⟩ := h.slot htx
      have hne : m ≠ n := fun hmn => by
        subst hmn
        obtain rfl : c = d := by simpa [hn] using hd
        exact hdue ⟨hdk, hdout⟩
      simpa [Port.postAborted, posts_post, hne] using hposted

theorem postAborted_fields (p : Port) (o : Option Nat) :
    (p.postAborted o).states = p.states ∧ (p.postAborted o).inFlight = p.inFlight ∧
      (p.postAborted o).completing = p.completing ∧ (p.postAborted o).calls = p.calls ∧
      (p.postAborted o).notified = p.notified ∧
      (p.postAborted o).opened = p.opened ∧ (p.postAborted o).alive = p.alive := by
  cases o <;> exact ⟨rfl, rfl, rfl, rfl, rfl, rfl, rfl⟩

theorem aborted_booked {l : Ledger} {k n : Nat} {d : Call} (h : (l n).map (Call.abort k) = some d) :
    ∃ c, l n = some c ∧ d = c.abort k := by
  obtain ⟨c, hc, rfl⟩ := Option.map_eq_some_iff.1 h
  exact ⟨c, hc, rfl⟩

/-- The calls of state `k` that were not settled are aborted, and posted so. -/
theorem exact_close {p p' : Port} {l : Ledger} (h : Books p l) {k : Nat}
    (hposted : p'.posted = (p.postAborted (p.states k).txHandler).posted) (hfl : p'.inFlight = p.inFlight)
    (hcomp : p'.completing = p.completing) (hnot : p'.notified = p.notified) :
    Exact ⟨p', fun n => (l n).map (Call.abort k)⟩ := by
  refine ⟨fun n d hn => ?_, fun n d hn hd => ?_, fun n d hn hd => ?_, fun r hr => ?_⟩
  · obtain ⟨c, hc, rfl⟩ := aborted_booked hn
    have hposts : posts p' n = posts (p.postAborted (p.states k).txHandler) n := by rw [posts, posts, hposted]
    exact hposts.trans (posts_close h hc)
  · obtain ⟨c, hc, rfl⟩ := aborted_booked hn
    rw [(abort_fields k c).2.2.2] at hd
    show (c.abort k).outcome ≠ none ∨ ∃ q ∈ p'.completing, q.send.call = n
    rw [hcomp]
    refine (h.exact.settled n c hc hd).imp_left fun hout => ?_
    rwa [abort_settled fun _ => hout]
  · obtain ⟨c, hc, rfl⟩ := aborted_booked hn
    rw [(abort_fields k c).2.2.2] at hd
    show ∃ t ∈ p'.inFlight, t.call = n
    rw [hfl]
    exact h.exact.flying n c hc hd
  · have hr : r ∈ p.notified := by rw [← hnot]; exact hr
    obtain ⟨c, hc, h1, h2, h3⟩ := h.exact.notified r hr
    have hc : l r.call = some c := hc
    obtain ⟨-, a2, a3, a4⟩ := abort_fields k c
    refine ⟨c.abort k, ?_, by rw [a2]; exact h1, by rw [a3]; exact h2, by rw [a4]; exact h3⟩
    simp [hc]

theorem Books.numbered_close {p : Port} {l : Ledger} (h : Books p l) (k : Nat) :
    ∀ r ∈ (p.postAborted (p.states k).txHandler).posted, r.call < p.calls := by
  intro r hr
  cases htx : (p.states k).txHandler with
  | none =>
    rw [htx] at hr
    exact h.numbered r hr
  | some m =>
    rw [htx] at hr
    rcases List.mem_append.1 hr with hr | hr
    · exact h.numbered r hr
    · obtain ⟨c, hc, -⟩ := h.slot htx
      rw [List.mem_singleton.1 hr]
      exact h.booked _ _ hc

theorem books_closeState {p : Port} {l : Ledger} (h : Books p l) {k : Nat} {s : State} (hown : s.owned = false)
    (hrx : s.rxHandler = none) (htx : s.txHandler = none) (hbuf : s.txBuffers = (p.states k).txBuffers) :
    Books ((p.postAborted (p.states k).txHandler).setState k s) fun n => (l n).map (Call.abort k) := by
  have hnumbered := h.numbered_close k
  have hexact : ∀ p' : Port, p'.posted = (p.postAborted (p.states k).txHandler).posted → p'.inFlight = p.inFlight →
      p'.completing = p.completing → p'.notified = p.notified → Exact ⟨p', fun n => (l n).map (Call.abort k)⟩ :=
    fun _ => exact_close h
  obtain ⟨hst, hfl, hcomp, hcalls, hnot, hopened, halive⟩ := postAborted_fields p (p.states k).txHandler
  generalize p.postAborted (p.states k).txHandler = q at *
  obtain ⟨mux, alive, opened, states, endpoints, inFlight, completing, calls, posted, notified⟩ := q
  simp only at hst hfl hcomp hcalls hnot hopened halive
  subst hst hfl hcomp hcalls hnot hopened halive
  refine .of_update rfl (hexact _ rfl rfl rfl rfl) (fun n d hn => ?_) hnumbered h.serial (fun t ht => ?_)
    (fun q hq => ?_) h.nested ⟨by simp [htx], by simp [hrx], by simp [hown]⟩
    fun j _ => ⟨h.tx j, fun n hn => ?_, h.owned j⟩
  · obtain ⟨c, hc, rfl⟩ := aborted_booked hn
    exact h.booked n c hc
  · obtain ⟨hlt, c, h1, h2, h3, h4, h5⟩ := h.sends t ht
    obtain ⟨a1, a2, a3, a4⟩ := abort_fields k c
    refine ⟨hlt, c.abort k, by simp [h1], by rw [a1]; exact h2, by rw [a4]; exact h3, ?_⟩
    by_cases htk : t.state = k
    · subst htk
      simp only [Port.setState, Function.update_self, hbuf, a2, htx]
      refine ⟨h4, fun hnone => ?_, fun hnone => by cases hnone⟩
      simp [Call.abort, h2] at hnone
    · have hck : c.abort k = c := abort_settled fun hck => absurd (h2.symm.trans hck) htk
      simp only [Port.setState, Function.update_of_ne htk, hck]
      exact ⟨h4, h5⟩
  · obtain ⟨hmem, c, hc, hres⟩ := h.completing q hq
    exact ⟨hmem, c.abort k, by simp [hc], by rw [(abort_fields k c).2.2.2]; exact hres⟩
  · obtain ⟨h1, h2⟩ := h.rx j n hn
    exact ⟨by simp [h1], h2⟩

theorem books_close {p : Port} {l : Ledger} (h : Books p l) (k : Nat) :
    Books (p.close k) fun n => (l n).map (Call.abort k) := by
  unfold Port.close
  dsimp only
  split
  · have hrx := h.postAborted (o := (p.states k).rxHandler) fun n hn => h.rx k n hn
    obtain ⟨hst, -⟩ := postAborted_fields p (p.states k).rxHandler
    refine Books.release ?_ k
    have := books_closeState hrx (k := k)
      (s := { p.states k with handler := false, rxHandler := none, txHandler := none, impl := false, owned := false })
      rfl rfl rfl (by rw [hst])
    rw [hst] at this
    exact this
  · next hown =>
    have hsame : (fun n => (l n).map (Call.abort k)) = l := by
      funext n
      cases hn : l n with
      | none => rfl
      | some c =>
        refine congrArg some (abort_settled fun hk hout => hown ?_)
        have := h.due hn hout
        rw [hk] at this
        exact (h.tx k n this).1
    rw [hsame]
    exact h

theorem books_handleRead {p p' : Port} {l : Ledger} {k size : Nat} {ec : ErrorCode} (h : Books p l)
    (hp : p.handleRead k ec size = .ok p') : Books p' l := by
  simp only [Port.handleRead] at hp
  split at hp
  · cases hp; exact h
  · cases hp
  · next call ep hrx _ =>
    split at hp
    · cases hp
    · cases hp
      obtain ⟨hn, hlt⟩ := h.rx k call hrx
      refine Books.post (Books.setState (h.quiet _ _) ?_ ?_ ?_ ?_ fun n hn => ?_) hn hlt <;> first | rfl | cases hn

theorem Books.destroy {p : Port} {l : Ledger} (h : Books p l) (hfree : p.Unowned) :
    Books { p with alive := false } l := by
  -- Whoever is open holds the impl, so nobody is.
  refine ⟨⟨h.exact.posted, h.exact.settled, h.exact.flying, h.exact.notified⟩, h.booked, h.numbered, h.serial,
    h.sends, h.completing, h.nested, h.tx, h.rx, fun k hk => ?_⟩
  obtain ⟨himpl, hlt, -⟩ := h.owned k hk
  rw [hfree.2.2.2 k hlt] at himpl
  cases himpl

theorem books_step {b b' : Booked} {ev : Port.Event} (h : Books b.port b.ledger) (hen : b.Enabled ev)
    (hserial : b.Serial ev) (hstep : b.step ev = .ok b') : Books b'.port b'.ledger := by
  obtain ⟨p, l⟩ := b
  simp only [step, Except.bind_ok_iff, Except.pure_ok_iff] at hstep
  obtain ⟨p', hp, rfl⟩ := hstep
  have h : Books p l := h
  have hen : p.Enabled ev := hen
  have hp : p.step ev = .ok p' := hp
  show Books p' (record ⟨p, l⟩ ev)
  cases ev with
  | bind => cases hp; exact books_bind h hen
  | asyncReceiveFrom k ep buffers => exact books_asyncReceiveFrom h hp
  | asyncSendTo k buffers dst =>
    cases hp
    obtain ⟨ep, hep⟩ := Option.ne_none_iff_exists'.1 hen.2
    cases hown : (p.states k).owned with
    | true =>
      simp only [record, hown, hep]
      exact books_send h hown hserial
    | false =>
      simp only [record, hown]
      have hpost : p.asyncSendTo k buffers dst =
          ({ p with calls := p.calls + 1 } : Port).post p.calls .badDescriptor 0 := by
        simp [Port.asyncSendTo, hown]
      rw [hpost]
      exact h.call.post h.unbooked (Nat.lt_succ_self _)
  | sent s ec size => cases hp; exact books_sent h hen.1 hen.2
  | sendToSignal => exact books_sendToSignal h hserial hp
  | sentEnd =>
    cases hp
    obtain ⟨q, rest, hcomp⟩ := List.exists_cons_of_ne_nil hen
    simp only [record, hcomp]
    exact books_sentEnd h hcomp
  | close k => cases hp; exact books_close h k
  | closeLast k => cases hp; exact (books_close h k).destroy hen.2
  | setEndpoint v ep => cases hp; exact h.quiet _ _
  | unlink => cases hp; exact h.quiet _ _
  | register | flushed =>
    simp only [Port.step, Except.bind_ok_iff, Except.pure_ok_iff] at hp
    obtain ⟨m, -, rfl⟩ := hp
    exact h.quiet _ _
  | received ec ep data =>
    simp only [Port.step, Except.bind_ok_iff, Except.pure_ok_iff] at hp
    obtain ⟨-, -, m, -, rfl⟩ := hp
    exact h.quiet _ _
  | next =>
    have hp : p.flushNext = .ok p' := hp
    simp only [Port.flushNext, Except.bind_ok_iff] at hp
    obtain ⟨m, -, hp⟩ := hp
    have h' : Books { p with multiplexer := m } l := h.quiet _ _
    split at hp
    · exact books_handleRead h' hp
    · cases hp; exact h'
  | destroy => cases hp; exact h.destroy hen

end Booked

end AsioUtp
