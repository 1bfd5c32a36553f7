/-
What `async_receive_from` is for.

The ledger is the abstract model: it books every call of `async_receive_from`
with its buffers and the number of datagrams that had arrived by then, every
arrival, and what the caller's endpoint and buffers held when its handler was
posted by the receive loop. A call is due the first datagram that arrives
after it was made, whoever else waits for that datagram and whatever is
called in between. `Port` has no such book: it has one slot per state and two
lists of entries, between which a flush moves all of them at once. The two
agree in every run (`receives_exact` in `AsioUtp.Receives`).
-/
import AsioUtp.Loop
import AsioUtp.States
import AsioUtp.Fanout
import AsioUtp.SendLedger

namespace AsioUtp

/-- A receive of the port that completed without being cancelled. -/
structure Arrival where
  ec : ErrorCode
  source : Endpoint
  data : List UInt8
  deriving Repr, DecidableEq

/-- What the entries are handed of it: with an error, nothing. -/
def Arrival.datagram (a : Arrival) : List UInt8 := if a.ec.isError then [] else a.data

/-- One call of `async_receive_from`. -/
structure Request where
  state : Nat
  /-- Was the `udp_multiplexer` open? -/
  isOpen : Bool
  buffers : List (List UInt8)
  /-- How many datagrams had arrived. -/
  before : Nat
  deriving Repr, DecidableEq

/-- What a caller finds when its handler is called. -/
structure Filled where
  source : Option Endpoint
  buffers : List (List UInt8)
  deriving Repr, DecidableEq

/-- The ledger: arrivals in order, calls by their number. -/
structure Mail where
  arrivals : List Arrival := []
  requests : Nat → Option Request := fun _ => none
  filled : Nat → Option Filled := fun _ => none

namespace Port

open Machine Multiplexer
open Booked (posts posts_post)

/-- The ledger `l` after the event `ev` that leads from `p` to `p'`. -/
def note (p : Port) (ev : Event) (p' : Port) (l : Mail) : Mail :=
  match ev with
  | .asyncReceiveFrom k _ buffers =>
    let r := { state := k, isOpen := (p.states k).owned, buffers, before := l.arrivals.length }
    { l with requests := Function.update l.requests p.calls (some r) }
  | .received ec source data =>
    if p'.multiplexer.flushing = none then l else { l with arrivals := l.arrivals ++ [⟨ec, source, data⟩] }
  | .next =>
    match p.multiplexer.pending.head? with
    | some (.state k) =>
      match (p.states k).rxHandler, (p.states k).rxEp with
      | some n, some ep =>
        { l with filled := Function.update l.filled n (some ⟨p'.endpoints ep, (p'.states k).rxBuffers⟩) }
      | _, _ => l
    | _ => l
  | _ => l

/-- State `k`, which has waited since `before` datagrams had arrived, is next to be handed the
first one after them: it will arrive, or it is the one being flushed. -/
def Turn (m : Multiplexer Entry) (arrived k before : Nat) : Prop :=
  .state k ∈ m.recvHandlers ∧ before = arrived ∨ .state k ∈ m.pending ∧ before + 1 = arrived

/-- The call `n` of request `r` waits in its state. -/
structure Waits (p : Port) (l : Mail) (n : Nat) (r : Request) : Prop where
  slot : (p.states r.state).rxHandler = some n
  buffers : (p.states r.state).rxBuffers = r.buffers
  ep : (p.states r.state).rxEp ≠ none
  owned : (p.states r.state).owned = true
  turn : Turn p.multiplexer l.arrivals.length r.state r.before

/-- What has become of the call `n` of request `r`, and what its handler has been posted with. -/
inductive Fate (p : Port) (l : Mail) (n : Nat) (r : Request) : Prop
  | refused : r.isOpen = false → posts p n = [(.badDescriptor, 0)] → l.filled n = none → Fate p l n r
  | waiting : r.isOpen = true → posts p n = [] → l.filled n = none → Waits p l n r → Fate p l n r
  | aborted : r.isOpen = true → (p.states r.state).owned = false → posts p n = [(.operationAborted, 0)] →
      l.filled n = none → Fate p l n r
  | delivered (a : Arrival) : r.isOpen = true → l.arrivals[r.before]? = some a →
      posts p n = [(a.ec, Scatter.copied r.buffers a.datagram)] →
      l.filled n = some ⟨some a.source, Scatter.copy r.buffers a.datagram⟩ → Fate p l n r

/-! ## The flags -/

/-- A state with an owner has everything else, and one without has no handler. -/
structure Roster (p : Port) : Prop where
  owned : ∀ k, (p.states k).owned = true → (p.states k).impl = true ∧ k < p.opened ∧ p.alive = true
  handler : ∀ k, (p.states k).handler = (p.states k).owned

theorem roster_init : Roster {} := ⟨by simp, by simp⟩

theorem Roster.follows {p p' : Port} (h : Roster p) (hf : Follows p p') : Roster p' where
  owned k hk := by
    rw [hf.impl, hf.opened, hf.alive]
    exact h.owned k (by rw [← hf.owned]; exact hk)
  handler k := by rw [hf.handler, hf.owned, h.handler]

theorem roster_close {p : Port} (h : Roster p) (k : Nat) : Roster (p.close k) := by
  by_cases hown : (p.states k).owned = true
  · obtain ⟨hclosed, hnot, hother, -, -, hopened, halive⟩ := close_states hown
    refine ⟨fun j hj => ?_, fun j => ?_⟩ <;> by_cases hjk : j = k
    · subst hjk
      rw [hnot] at hj
      cases hj
    · rw [hother j hjk] at hj ⊢
      rw [hopened, halive]
      exact h.owned j hj
    · subst hjk
      rw [hnot, hclosed.handler]
    · rw [hother j hjk]
      exact h.handler j
  · have hclose : p.close k = p := by simp [close, hown]
    rwa [hclose]

theorem Roster.destroy {p : Port} (h : Roster p) (hfree : p.Unowned) : Roster { p with alive := false } := by
  -- Whoever is open holds the impl, so nobody is.
  refine ⟨fun k hk => ?_, h.handler⟩
  obtain ⟨himpl, hlt, -⟩ := h.owned k hk
  rw [hfree.2.2.2 k hlt] at himpl
  cases himpl

theorem roster_step {p p' : Port} {ev : Event} (h : Roster p) (hen : p.Enabled ev) (hstep : p.step ev = .ok p') :
    Roster p' := by
  cases ev with
  | bind =>
    cases hstep
    refine ⟨fun k hk => ?_, fun k => ?_⟩ <;> by_cases hko : k = p.opened
    · subst hko
      exact ⟨by simp [Port.bind, setState], Nat.lt_succ_self _, hen⟩
    · simp only [Port.bind, setState, Function.update_of_ne hko] at hk ⊢
      obtain ⟨h1, h2, h3⟩ := h.owned k hk
      exact ⟨h1, Nat.lt_succ_of_lt h2, h3⟩
    · subst hko
      simp [Port.bind, setState]
    · simp only [Port.bind, setState, Function.update_of_ne hko]
      exact h.handler k
  | asyncReceiveFrom k ep buffers => exact h.follows (asyncReceiveFrom_follows hstep).1
  | asyncSendTo k buffers dst =>
    cases hstep
    exact h.follows (asyncSendTo_follows p k buffers dst).1
  | close k =>
    cases hstep
    exact roster_close h k
  | setEndpoint v ep =>
    cases hstep
    exact ⟨h.owned, h.handler⟩
  | closeLast k =>
    cases hstep
    exact (roster_close h k).destroy hen.2
  | destroy =>
    cases hstep
    exact h.destroy hen
  | sent | sendToSignal | sentEnd | register | unlink | received | next | flushed =>
    exact h.follows (step_follows hstep rfl).1

/-! ## What the ledger and the port agree on -/

/-- The datagram a flush hands out is the last that arrived. -/
def HandsOut (m : Multiplexer Entry) (l : Mail) : Prop :=
  ∀ f, m.flushing = some f → ∃ a, l.arrivals[l.arrivals.length - 1]? = some a ∧ f.ec = a.ec ∧
    m.rxEndpoint = a.source ∧ m.rxBuffer.take f.size = a.datagram

structure Mailed (p : Port) (l : Mail) : Prop where
  fate : ∀ n r, l.requests n = some r → Fate p l n r
  made : ∀ n r, l.requests n = some r → n < p.calls ∧ r.state < p.opened
  slot : ∀ k n, (p.states k).rxHandler = some n → posts p n = [] ∧ ∃ r, l.requests n = some r ∧ r.state = k
  tx : ∀ k n, (p.states k).txHandler = some n → l.requests n = none ∧ n < p.calls
  numbered : ∀ q ∈ p.posted, q.call < p.calls
  filled : ∀ n, p.calls ≤ n → l.filled n = none
  linked : ∀ k, p.multiplexer.Linked (.state k) → k < p.opened ∧
    ((p.states k).owned = true → (p.states k).rxHandler ≠ none)
  flush : HandsOut p.multiplexer l

theorem mailed_init : Mailed {} {} where
  fate := by simp
  made := by simp
  slot := by simp
  tx := by simp
  numbered := by simp
  filled := by simp
  linked := by simp [Linked, pending]
  flush := by simp [HandsOut]

/-- What of a state concerns its receive. -/
structure SameReceive (s s' : State) : Prop where
  rxHandler : s'.rxHandler = s.rxHandler
  rxBuffers : s'.rxBuffers = s.rxBuffers
  rxEp : s'.rxEp = s.rxEp
  owned : s'.owned = s.owned

theorem SameReceive.refl (s : State) : SameReceive s s := ⟨rfl, rfl, rfl, rfl⟩

theorem Waits.mono {p p' : Port} {l l' : Mail} {n : Nat} {r : Request} (h : Waits p l n r)
    (hs : SameReceive (p.states r.state) (p'.states r.state))
    (ht : Turn p.multiplexer l.arrivals.length r.state r.before →
      Turn p'.multiplexer l'.arrivals.length r.state r.before) : Waits p' l' n r where
  slot := by rw [hs.rxHandler, h.slot]
  buffers := by rw [hs.rxBuffers, h.buffers]
  ep := by rw [hs.rxEp]; exact h.ep
  owned := by rw [hs.owned, h.owned]
  turn := ht h.turn

/-- What is decided stays so. -/
theorem Fate.mono {p p' : Port} {l l' : Mail} {n : Nat} {r : Request} (h : Fate p l n r)
    (hposts : posts p' n = posts p n) (hfilled : l'.filled n = l.filled n) (harr : l.arrivals <+: l'.arrivals)
    (hclosed : (p.states r.state).owned = false → (p'.states r.state).owned = false)
    (hwaits : Waits p l n r → Waits p' l' n r) : Fate p' l' n r := by
  cases h with
  | refused h1 h2 h3 => exact .refused h1 (hposts.trans h2) (hfilled.trans h3)
  | waiting h1 h2 h3 h4 => exact .waiting h1 (hposts.trans h2) (hfilled.trans h3) (hwaits h4)
  | aborted h1 h2 h3 h4 => exact .aborted h1 (hclosed h2) (hposts.trans h3) (hfilled.trans h4)
  | delivered a h1 h2 h3 h4 =>
    refine .delivered a h1 ?_ (hposts.trans h3) (hfilled.trans h4)
    obtain ⟨rest, hrest⟩ := harr
    have hlt : r.before < l.arrivals.length := (List.getElem?_eq_some_iff.1 h2).1
    rw [← hrest, List.getElem?_append_left hlt]
    exact h2

/-- A step from `p` with `l` to `p'` with `l'` that leaves the receives of the states of `kept`
alone, and what is to be known of the others. -/
structure Change (p : Port) (l : Mail) (p' : Port) (l' : Mail) (kept : Nat → Prop) : Prop where
  calls : p.calls ≤ p'.calls
  opened : p.opened ≤ p'.opened
  arrivals : l.arrivals <+: l'.arrivals
  same : ∀ k, kept k → SameReceive (p.states k) (p'.states k)
  closed : ∀ k, k < p.opened → (p.states k).owned = false → (p'.states k).owned = false
  turn : ∀ k before, kept k → (p.states k).owned = true → Turn p.multiplexer l.arrivals.length k before →
    Turn p'.multiplexer l'.arrivals.length k before
  requested : ∀ n r, l.requests n = some r → l'.requests n = some r
  requests : ∀ n r, l'.requests n = some r → l.requests n = some r ∨
    n < p'.calls ∧ r.state < p'.opened ∧ Fate p' l' n r
  untouched : ∀ n r, l.requests n = some r → (Waits p l n r → kept r.state) →
    posts p' n = posts p n ∧ l'.filled n = l.filled n
  settled : ∀ n r, l.requests n = some r → r.isOpen = true → posts p n = [] → l.filled n = none → Waits p l n r →
    ¬ kept r.state → Fate p' l' n r
  slot : ∀ k n, ¬ kept k → (p'.states k).rxHandler = some n →
    posts p' n = [] ∧ ∃ r, l'.requests n = some r ∧ r.state = k
  tx : ∀ k n, (p'.states k).txHandler = some n → l'.requests n = none ∧ n < p'.calls
  numbered : ∀ q ∈ p'.posted, q.call < p'.calls
  filled : ∀ n, p'.calls ≤ n → l'.filled n = none
  linked : ∀ k, p'.multiplexer.Linked (.state k) → kept k ∧ p.multiplexer.Linked (.state k) ∨
    k < p'.opened ∧ ((p'.states k).owned = true → (p'.states k).rxHandler ≠ none)
  flush : HandsOut p'.multiplexer l'

theorem Mailed.change {p p' : Port} {l l' : Mail} {kept : Nat → Prop} (h : Mailed p l)
    (hc : Change p l p' l' kept) : Mailed p' l' where
  fate n r hr := by
    rcases hc.requests n r hr with hr | ⟨-, -, hfate⟩
    · by_cases hw : Waits p l n r ∧ ¬ kept r.state
      · obtain ⟨hw, hk⟩ := hw
        obtain ⟨hposts, -⟩ := h.slot r.state n hw.slot
        cases h.fate n r hr with
        | waiting h1 h2 h3 _ => exact hc.settled n r hr h1 h2 h3 hw hk
        | refused _ h2 | aborted _ _ h2 | delivered _ _ _ h2 =>
          rw [hposts] at h2
          cases h2
      · have hkept : Waits p l n r → kept r.state := fun hw' => by_contra fun hk => hw ⟨hw', hk⟩
        obtain ⟨hposts, hfilled⟩ := hc.untouched n r hr hkept
        exact (h.fate n r hr).mono hposts hfilled hc.arrivals (hc.closed _ (h.made n r hr).2) fun hw =>
          hw.mono (hc.same _ (hkept hw)) (hc.turn _ _ (hkept hw) hw.owned)
    · exact hfate
  made n r hr := by
    rcases hc.requests n r hr with hr | ⟨h1, h2, -⟩
    · obtain ⟨h1, h2⟩ := h.made n r hr
      exact ⟨lt_of_lt_of_le h1 hc.calls, lt_of_lt_of_le h2 hc.opened⟩
    · exact ⟨h1, h2⟩
  slot k n hk := by
    by_cases hkept : kept k
    · rw [(hc.same k hkept).rxHandler] at hk
      obtain ⟨hposts, r, hr, hrk⟩ := h.slot k n hk
      refine ⟨?_, r, hc.requested n r hr, hrk⟩
      rw [(hc.untouched n r hr fun _ => hrk ▸ hkept).1, hposts]
    · exact hc.slot k n hkept hk
  tx := hc.tx
  numbered := hc.numbered
  filled := hc.filled
  linked k hk := by
    rcases hc.linked k hk with ⟨hkept, hl⟩ | hnew
    · obtain ⟨hlt, hrx⟩ := h.linked k hl
      have hsame := hc.same k hkept
      exact ⟨lt_of_lt_of_le hlt hc.opened, fun hown => by rw [hsame.rxHandler]; exact hrx (by rw [← hsame.owned, hown])⟩
    · exact hnew
  flush := hc.flush

/-! ## The receive loop moves on -/

/-- The loop moves on from `m` to `m'`, and the states of `kept` stay where they are. -/
structure Steady (m m' : Multiplexer Entry) (kept : Nat → Prop) : Prop where
  linked : ∀ k, m'.Linked (.state k) → m.Linked (.state k)
  registered : ∀ k, kept k → .state k ∈ m.recvHandlers → .state k ∈ m'.recvHandlers
  pending : ∀ k, kept k → .state k ∈ m.pending → .state k ∈ m'.pending
  flush : ∀ f', m'.flushing = some f' → m'.rxEndpoint = m.rxEndpoint ∧ m'.rxBuffer = m.rxBuffer ∧
    ∃ f, m.flushing = some f ∧ f'.ec = f.ec ∧ f'.size = f.size

variable {m m' : Multiplexer Entry} {kept : Nat → Prop}

theorem Steady.refl (m : Multiplexer Entry) (kept : Nat → Prop) : Steady m m kept :=
  ⟨fun _ h => h, fun _ _ h => h, fun _ _ h => h, fun f hf => ⟨rfl, rfl, f, hf, rfl, rfl⟩⟩

theorem Steady.turn (h : Steady m m' kept) {arrived k before : Nat} (hk : kept k) (ht : Turn m arrived k before) :
    Turn m' arrived k before :=
  ht.imp (.imp_left (h.registered k hk)) (.imp_left (h.pending k hk))

theorem Steady.handsOut (h : Steady m m' kept) {l : Mail} (hm : HandsOut m l) : HandsOut m' l := by
  intro f' hf'
  obtain ⟨h1, h2, f, hf, h3, h4⟩ := h.flush f' hf'
  rw [h1, h2, h3, h4]
  exact hm f hf

theorem register_lists {e : Entry} (h : m.registerRecvHandler e = .ok m') :
    m'.recvHandlers = m.recvHandlers ++ [e] ∧ m'.flushing = m.flushing ∧ m'.rxEndpoint = m.rxEndpoint ∧
      m'.rxBuffer = m.rxBuffer := by
  have hl := registerRecvHandler_enabled h
  rw [registerRecvHandler_eq hl] at h
  cases h
  split <;> exact ⟨rfl, rfl, rfl, rfl⟩

theorem steady_register {e : Entry} (h : m.registerRecvHandler e = .ok m') (kept : Nat → Prop)
    (he : ∀ k, e ≠ .state k) : Steady m m' kept := by
  obtain ⟨h1, h2, h3, h4⟩ := register_lists h
  have hpend : m'.pending = m.pending := by rw [pending, h2, pending]
  refine ⟨fun k hk => ?_, fun k _ hk => ?_, fun k _ hk => by rwa [hpend], fun f' hf' => ?_⟩
  · rcases (linked_register (registerRecvHandler_enabled h) h).1 hk with heq | hk
    · exact absurd heq.symm (he k)
    · exact hk
  · rw [h1]
    exact List.mem_append_left _ hk
  · exact ⟨h3, h4, f', by rw [← h2]; exact hf', rfl, rfl⟩

theorem steady_unlink (m : Multiplexer Entry) (e : Entry) (he : ∀ k, kept k → e ≠ .state k) :
    Steady m (m.unlink e) kept := by
  obtain ⟨h1, h2, h3, h4⟩ := unlink_lists m e
  have hpend : (m.unlink e).pending = m.pending.erase e := by
    rw [pending, h2, pending]
    cases m.flushing <;> simp
  refine ⟨fun k hk => ?_, fun k hkept hk => ?_, fun k hkept hk => ?_, fun f' hf' => ⟨h3, h4, ?_⟩⟩
  · rw [Linked, h1, hpend] at hk
    exact hk.imp List.mem_of_mem_erase List.mem_of_mem_erase
  · rw [h1]
    exact (List.mem_erase_of_ne (he k hkept).symm).2 hk
  · rw [hpend]
    exact (List.mem_erase_of_ne (he k hkept).symm).2 hk
  · rw [h2] at hf'
    obtain ⟨f, hf, rfl⟩ := Option.map_eq_some_iff.1 hf'
    exact ⟨f, hf, rfl, rfl⟩

theorem receiveAgain_lists (h : m.receiveAgain = .ok m') :
    m'.recvHandlers = m.recvHandlers ∧ m'.flushing = m.flushing := by
  rw [receiveAgain_eq] at h
  cases h
  split <;> exact ⟨rfl, rfl⟩

theorem steady_flushed (hpend : m.pending = []) (h : m.flushed = .ok m') (kept : Nat → Prop) : Steady m m' kept := by
  obtain ⟨h1, h2⟩ := receiveAgain_lists h
  refine ⟨fun k hk => (linked_flushed hpend h).1 hk, fun k _ hk => by rwa [h1], fun k _ hk => ?_, fun f' hf' => ?_⟩
  · rw [hpend] at hk
    cases hk
  · rw [h2] at hf'
    cases hf'

/-- A receive completes: it was cancelled and nothing is flushed, or the registered entries are. -/
theorem received_cases {ec : ErrorCode} {ep : Endpoint} {data : List UInt8} (hf : m.flushing = none)
    (h : (m.receiveCompleted ep data).onReceive ec data.length = .ok m') :
    m'.flushing = none ∧ m'.recvHandlers = m.recvHandlers ∨
      m'.flushing = some ⟨ec, if ec.isError then 0 else data.length, m.recvHandlers⟩ ∧ m'.recvHandlers = [] ∧
        m'.rxEndpoint = ep ∧ m'.rxBuffer = data := by
  simp only [onReceive, Except.bind_ok_iff, Except.require_ok_iff] at h
  obtain ⟨-, -, h⟩ := h
  split at h
  · obtain ⟨h1, h2⟩ := receiveAgain_lists h
    exact .inl ⟨h2.trans hf, h1⟩
  · cases h
    exact .inr ⟨rfl, rfl, rfl, rfl⟩

theorem pending_of_idle (hf : m.flushing = none) : m.pending = [] := by rw [pending, hf]; rfl

theorem steady_canceled (hf : m.flushing = none) (hf' : m'.flushing = none) (hreg : m'.recvHandlers = m.recvHandlers)
    (kept : Nat → Prop) : Steady m m' kept := by
  refine ⟨fun k hk => ?_, fun k _ hk => by rwa [hreg], fun k _ hk => ?_, fun f hff => ?_⟩
  · rwa [Linked, hreg, pending_of_idle hf', ← pending_of_idle hf] at hk
  · rw [pending_of_idle hf] at hk
    cases hk
  · rw [hf'] at hff
    cases hff

theorem flushing_of_pending (h : m.pending ≠ []) : ∃ ec size e rest, m.flushing = some ⟨ec, size, e :: rest⟩ := by
  cases hf : m.flushing with
  | none => exact absurd (pending_of_idle hf) h
  | some f =>
    obtain ⟨ec, size, list⟩ := f
    cases list with
    | nil => exact absurd (by rw [pending, hf]; rfl) h
    | cons e rest => exact ⟨ec, size, e, rest, rfl⟩

/-- The flush pops its next entry. -/
theorem next_lists {handler : Entry → Bool} {ec : ErrorCode} {size : Nat} {e : Entry} {rest : List Entry}
    (hf : m.flushing = some ⟨ec, size, e :: rest⟩) (h : m.flushNext handler = .ok m') :
    handler e = true ∧ m' = { m with flushing := some ⟨ec, size, rest⟩ } := by
  simp only [Multiplexer.flushNext, hf, Except.bind_ok_iff, Except.require_ok_iff, Except.pure_ok_iff] at h
  obtain ⟨-, he, rfl⟩ := h
  exact ⟨he, rfl⟩

theorem steady_next {ec : ErrorCode} {size : Nat} {e : Entry} {rest : List Entry}
    (hf : m.flushing = some ⟨ec, size, e :: rest⟩) (he : ∀ k, kept k → e ≠ .state k) :
    Steady m { m with flushing := some ⟨ec, size, rest⟩ } kept := by
  have hpend : m.pending = e :: rest := by simp [pending, hf]
  refine ⟨fun k hk => hk.imp_right fun hk => ?_, fun k _ hk => hk, fun k hkept hk => ?_, fun f' hf' => ?_⟩
  · rw [hpend]
    exact List.mem_cons_of_mem _ hk
  · rw [hpend] at hk
    rcases List.mem_cons.1 hk with heq | hk
    · exact absurd heq.symm (he k hkept)
    · exact hk
  · cases hf'
    exact ⟨rfl, rfl, _, hf, rfl, rfl⟩

end Port

end AsioUtp
