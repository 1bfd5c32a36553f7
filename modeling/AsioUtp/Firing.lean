/-
A call of a `Signal`, with what its slots do meanwhile.

`Signal::operator()` walks the intrusive list itself, not a copy of it, and
every slot it calls can connect, move and destroy `Connection`s before the
iterator goes on. A slot that calls the signal again only adds such changes to
those the outer call sees, so one cursor is enough.

The abstract call knows no cursor: it calls, as long as there is one, the
first live slot it has not called. The walk does just that (`firing_exact`),
as long as no slot touches the `Connection` that is being called. One that is
destroyed while its own slot runs, or gives its place in the list away, takes
the iterator's node out of the list (`Displaces`).
-/
import AsioUtp.SignalFacts
import AsioUtp.Lib.History

namespace AsioUtp

open Machine

namespace Signal

variable {σ : Type} {std : MovedFrom σ}

/-! ## The walk -/

/-- The nodes behind `c`. -/
def after (l : List Nat) (c : Nat) : List Nat := (l.dropWhile (· ≠ c)).tail

/-- A signal and the call of it that is under way, or the last one. -/
structure Firing (σ : Type) where
  signal : Signal σ := {}
  /-- The node the iterator is at: its slot is running. -/
  current : Option Nat := none
  /-- The slots this call has called, in order. -/
  called : List σ := []

/-- The event destroys the node of `c`, or puts one in its place that was not linked. -/
def Displaces (s : Signal σ) (c : Nat) : Event σ → Prop
  | .construct | .connect _ => False
  | .moveConstruct d | .destroy d => d = c
  | .moveAssign d d' => d = c ∧ d' ∉ s.connections ∨ d' = c ∧ d ∉ s.connections
  | .moveAssignTemporary d d' => d' = c ∨ d = c ∧ d' ∉ s.connections

namespace Firing

inductive Event (σ : Type)
  /-- Something is done to the connections, by the slot that runs if there is one. -/
  | edit (ev : Signal.Event σ)
  /-- `operator()` is called. -/
  | fire
  /-- The slot returns. -/
  | advance
  deriving Repr, DecidableEq

/-- The loop goes on with the nodes `l`: the slot of the first is called. -/
def callFrom (f : Firing σ) : List Nat → Except Fault (Firing σ)
  | [] => .ok { f with current := none }
  | c :: _ =>
    match f.signal.slot c with
    | some g => .ok { f with current := some c, called := f.called ++ [g] }
    | none => .error (.assertion .signalCall)

def step (std : MovedFrom σ) (f : Firing σ) : Event σ → Except Fault (Firing σ)
  | .edit ev => .ok { f with signal := f.signal.step std ev }
  | .fire => callFrom { f with called := [] } f.signal.connections
  | .advance =>
    match f.current with
    | none => .ok f
    | some c =>
      -- The iterator is at the node, wherever that is linked by now; for one in no list there is no `++it`.
      if c ∈ f.signal.connections then f.callFrom (after f.signal.connections c) else .error .dangling

def Enabled (f : Firing σ) : Event σ → Prop
  | .edit ev => f.signal.Enabled ev
  | .fire => f.current = none
  | .advance => f.current.isSome

instance (f : Firing σ) : (ev : Event σ) → Decidable (f.Enabled ev)
  | .edit ev => inferInstanceAs (Decidable (f.signal.Enabled ev))
  | .fire | .advance => inferInstanceAs (Decidable (_ = _))

theorem advance_dangling_iff {f : Firing σ} {s : Signal σ} {c : Nat} (hc : f.current = some c) :
    step std { f with signal := s } .advance = .error .dangling ↔ c ∉ s.connections := by
  simp only [step, hc]
  split
  · next hmem =>
    refine iff_of_false ?_ (not_not.2 hmem)
    unfold callFrom
    split
    · simp
    · split <;> simp
  · next hmem => exact iff_of_true rfl hmem

/-- The `Connection`s the event moves, assigns over or destroys. -/
def touched : Signal.Event σ → List Nat
  | .construct | .connect _ => []
  | .moveConstruct c | .destroy c => [c]
  | .moveAssign c c' | .moveAssignTemporary c c' => [c, c']

/-- A change leaves the `Connection` being called alone, and the agreement of list and slots. -/
def Permits (std : MovedFrom σ) (f : Firing σ) (ev : Event σ) : Prop :=
  f.Enabled ev ∧
    match ev with
    | .edit ev => f.signal.Clean std ev ∧ ∀ c ∈ f.current, c ∉ touched ev
    | _ => True

instance [DecidableEq σ] (std : MovedFrom σ) (f : Firing σ) : (ev : Event σ) → Decidable (f.Permits std ev)
  | .edit _ => inferInstanceAs (Decidable (_ ∧ _ ∧ _))
  | .fire | .advance => inferInstanceAs (Decidable (_ ∧ True))

end Firing

/-! ## The abstract call -/

/-- The live slots, each with its holder and its number: how many `Connection`s there had been
when it was connected. -/
abbrev Queue (σ : Type) := Held (Nat × σ)

/-- The live slots and what the call under way, or the last one, has called of them. -/
structure Called (σ : Type) where
  live : Queue σ := []
  calls : List (Nat × σ) := []

namespace Called

/-- The live slots after `ev` happened to `s`. -/
def record (s : Signal σ) (l : Queue σ) : Signal.Event σ → Queue σ
  | .construct => l
  | .connect f => l ++ f.toList.map fun g => (s.made, s.made, g)
  | .moveConstruct c => l.handOver c s.made
  | .moveAssign c c' => l.assign c c'
  | .moveAssignTemporary c c' => l.assign c c'
  | .destroy c => l.drop c

/-- The first live slot not called yet. -/
def next (l : Called σ) : Option (Nat × Nat × σ) := l.live.find? fun q => q.2.1 ∉ l.calls.map Prod.fst

/-- It is called. -/
def callNext (l : Called σ) : Called σ := { l with calls := l.calls ++ l.next.toList.map Prod.snd }

def note (f : Firing σ) (ev : Firing.Event σ) (_ : Firing σ) (l : Called σ) : Called σ :=
  match ev with
  | .edit ev => { l with live := record f.signal l.live ev }
  | .fire => callNext { l with calls := [] }
  | .advance => l.callNext

end Called

/-- The abstract call beside the events `evs`. -/
def Firing.log (std : MovedFrom σ) (evs : List (Firing.Event σ)) : Called σ :=
  Machine.record (Firing.step std) Called.note {} {} evs

/-! ## Numbers of the live slots -/

/-- The live slots without their numbers. -/
def Queue.forget (l : Queue σ) : Held σ := l.map fun q => (q.1, q.2.2)

namespace Queue

theorem forget_handOver (l : Queue σ) (c' c : Nat) : forget (l.handOver c' c) = l.forget.handOver c' c := by
  simp [forget, Held.handOver, Function.comp_def]

theorem forget_drop (l : Queue σ) (c : Nat) : forget (l.drop c) = l.forget.drop c := by
  simp only [forget, Held.drop, List.filter_map]
  rfl

theorem forget_assign (l : Queue σ) (c c' : Nat) : forget (l.assign c c') = l.forget.assign c c' := by
  unfold Held.assign
  split
  · rfl
  · rw [forget_handOver, forget_drop]

theorem map_fst_forget (l : Queue σ) : l.forget.map Prod.fst = l.map Prod.fst := by
  simp [forget, Function.comp_def]

end Queue

/-- What `connect` adds. -/
def Called.added (s : Signal σ) : Signal.Event σ → List (Nat × σ)
  | .connect f => f.toList.map fun g => (s.made, g)
  | _ => []

theorem Held.map_snd_handOver {τ : Type} (l : Held τ) (c' c : Nat) :
    (l.handOver c' c).map Prod.snd = l.map Prod.snd := by
  simp [Held.handOver, Function.comp_def]

theorem Held.assign_sublist {τ : Type} (l : Held τ) (c c' : Nat) :
    ((l.assign c c').map Prod.snd).Sublist (l.map Prod.snd) := by
  unfold Held.assign
  split
  · exact List.Sublist.refl _
  · rw [Held.map_snd_handOver]
    exact List.filter_sublist.map _

namespace Called

/-- Leaving out the numbers, the queue changes as the live slots do. -/
theorem forget_record (s : Signal σ) (l : Queue σ) (ev : Signal.Event σ) :
    (record s l ev).forget = Followed.record ⟨s, l.forget⟩ ev := by
  cases ev with
  | construct => rfl
  | connect f => simp [record, Followed.record, Queue.forget, Function.comp_def]
  | moveConstruct c => exact Queue.forget_handOver l c s.made
  | moveAssign c c' | moveAssignTemporary c c' => exact Queue.forget_assign l c c'
  | destroy c => exact Queue.forget_drop l c

/-- Slots leave the queue, are handed on in it and join it at its end. -/
theorem record_sublist (s : Signal σ) (l : Queue σ) (ev : Signal.Event σ) :
    ((record s l ev).map Prod.snd).Sublist (l.map Prod.snd ++ added s ev) := by
  cases ev with
  | construct => simp [record, added]
  | connect f => simp [record, added, Function.comp_def]
  | moveConstruct c => simp [record, added, Held.map_snd_handOver]
  | moveAssign c c' | moveAssignTemporary c c' => simpa [record, added] using Held.assign_sublist l c c'
  | destroy c => simpa [record, added, Held.drop] using List.filter_sublist.map Prod.snd

/-- Who is not touched holds on to what it has. -/
theorem mem_record {s : Signal σ} {l : Queue σ} {ev : Signal.Event σ} {q : Nat × Nat × σ} (hq : q ∈ l)
    (ht : q.1 ∉ Firing.touched ev) : q ∈ record s l ev := by
  have hover : ∀ (l : Queue σ) (c' c : Nat), q ∈ l → q.1 ≠ c' → q ∈ l.handOver c' c := fun l c' c hq hne =>
    List.mem_map.2 ⟨q, hq, by rw [if_neg hne]⟩
  have hassign : ∀ c c', q.1 ∉ [c, c'] → q ∈ l.assign c c' := by
    intro c c' hne
    obtain ⟨hc, hc'⟩ : q.1 ≠ c ∧ q.1 ≠ c' := by simpa using hne
    unfold Held.assign
    split
    · exact hq
    · exact hover _ _ _ (List.mem_filter.2 ⟨hq, by simpa using hc⟩) hc'
  cases ev with
  | construct => exact hq
  | connect f => exact List.mem_append_left _ hq
  | moveConstruct c => exact hover _ _ _ hq (by simpa [Firing.touched] using ht)
  | moveAssign c c' | moveAssignTemporary c c' => exact hassign c c' ht
  | destroy c => exact List.mem_filter.2 ⟨hq, by simpa [Firing.touched] using ht⟩

end Called

theorem made_le_step (s : Signal σ) (ev : Signal.Event σ) : s.made ≤ (s.step std ev).made := by
  have hmove : ∀ (s : Signal σ) c c', (s.moveSlot std c c').made = s.made := by
    intro s c c'
    unfold moveSlot
    split <;> rfl
  cases ev with
  | construct | connect f => exact Nat.le_succ _
  | moveConstruct c => exact Nat.le_trans (Nat.le_succ _) (Nat.le_of_eq (hmove s.construct s.made c).symm)
  | moveAssign c c' | moveAssignTemporary c c' => exact Nat.le_of_eq (hmove s c c').symm
  | destroy c => exact Nat.le_refl _

/-! ## The walk and the abstract call -/

/-- The walk has got as far as the abstract call. -/
structure Tracks (f : Firing σ) (l : Called σ) : Prop where
  exact : Followed.Exact ⟨f.signal, l.live.forget⟩
  numbered : f.signal.Numbered
  /-- The live slots are in the order they were connected in. -/
  order : (l.live.map fun q => q.2.1).Pairwise (· < ·)
  fresh : ∀ q ∈ l.live, q.2.1 < f.signal.made
  calls : (l.calls.map Prod.fst).Pairwise (· < ·)
  called : f.called = l.calls.map Prod.snd
  /-- The current node is live, was called last, and nothing live before it has been left out. -/
  current : ∀ c ∈ f.current, ∃ k, (c, k) ∈ l.live ∧ k ∈ l.calls ∧ (∀ k' ∈ l.calls, k'.1 ≤ k.1) ∧
    ∀ q ∈ l.live, q.2.1 ≤ k.1 → q.2 ∈ l.calls

theorem tracks_init : Tracks ({} : Firing σ) {} where
  exact := ⟨rfl, List.nodup_nil, by simp [Queue.forget]⟩
  numbered := by
    intro c hc
    cases hc
  order := List.Pairwise.nil
  fresh := by simp
  calls := List.Pairwise.nil
  called := rfl
  current := by simp

theorem Tracks.edit {f : Firing σ} {l : Called σ} (h : Tracks f l) {ev : Signal.Event σ}
    (hen : f.signal.Enabled ev) (hcl : f.signal.Clean std ev) (ht : ∀ c ∈ f.current, c ∉ Firing.touched ev) :
    Tracks { f with signal := f.signal.step std ev } { l with live := Called.record f.signal l.live ev } := by
  have hsub := Called.record_sublist f.signal l.live ev
  have hadded : ∀ k ∈ Called.added f.signal ev,
      k.1 = f.signal.made ∧ f.signal.made < (f.signal.step std ev).made := by
    intro k hk
    cases ev with
    | connect g =>
      obtain ⟨g, -, rfl⟩ := List.mem_map.1 hk
      exact ⟨rfl, Nat.lt_succ_self _⟩
    | _ => cases hk
  -- a slot live now was live, or has just been connected
  have hmem : ∀ q ∈ Called.record f.signal l.live ev,
      (∃ c, (c, q.2) ∈ l.live) ∨ q.2 ∈ Called.added f.signal ev := by
    intro q hq
    rcases List.mem_append.1 (hsub.subset (List.mem_map_of_mem hq)) with hk | hk
    · obtain ⟨q', hq', he⟩ := List.mem_map.1 hk
      exact .inl ⟨q'.1, he ▸ hq'⟩
    · exact .inr hk
  refine ⟨?_, h.numbered.step hen, ?_, ?_, h.calls, h.called, ?_⟩
  · have hex := Followed.exact_next h.exact h.numbered hen hcl
    rwa [Followed.next, ← Called.forget_record] at hex
  · have hold : ((l.live.map Prod.snd ++ Called.added f.signal ev).map Prod.fst).Pairwise (· < ·) := by
      rw [List.map_append, List.pairwise_append, List.map_map]
      refine ⟨h.order, ?_, ?_⟩
      · cases ev with
        | connect g => cases g <;> simp [Called.added]
        | _ => exact List.Pairwise.nil
      · intro n hn m hm
        obtain ⟨q, hq, rfl⟩ := List.mem_map.1 hn
        obtain ⟨k, hk, rfl⟩ := List.mem_map.1 hm
        rw [(hadded k hk).1]
        exact h.fresh q hq
    have := hold.sublist (hsub.map Prod.fst)
    rwa [List.map_map] at this
  · intro q hq
    rcases hmem q hq with ⟨c, hc⟩ | hk
    · exact Nat.lt_of_lt_of_le (h.fresh (c, q.2) hc) (made_le_step f.signal ev)
    · rw [(hadded _ hk).1]
      exact (hadded _ hk).2
  · intro c hc
    obtain ⟨k, hk, hcalled, hlast, hbefore⟩ := h.current c hc
    refine ⟨k, Called.mem_record hk (ht c hc), hcalled, hlast, fun q hq hle => ?_⟩
    rcases hmem q hq with ⟨c', hc'⟩ | hnew
    · exact hbefore (c', q.2) hc' hle
    · have hlt : k.1 < f.signal.made := h.fresh (c, k) hk
      have hmade : q.2.1 = f.signal.made := (hadded q.2 hnew).1
      omega

/-- The loop at the nodes of `post`, with what is live before them called, is at the first slot the
abstract call has not called. -/
theorem callFrom_tracks {f : Firing σ} {l : Called σ} (pre post : Queue σ)
    (hex : Followed.Exact ⟨f.signal, l.live.forget⟩) (hn : f.signal.Numbered)
    (horder : (l.live.map fun q => q.2.1).Pairwise (· < ·)) (hfresh : ∀ q ∈ l.live, q.2.1 < f.signal.made)
    (hcalls : (l.calls.map Prod.fst).Pairwise (· < ·)) (hcalled : f.called = l.calls.map Prod.snd)
    (hlive : l.live = pre ++ post) (hpre : ∀ q ∈ pre, q.2 ∈ l.calls)
    (hpost : ∀ q ∈ post, ∀ k ∈ l.calls, k.1 < q.2.1) :
    ∃ f', f.callFrom (post.map Prod.fst) = .ok f' ∧ Tracks f' l.callNext ∧ f'.current = l.next.map Prod.fst := by
  have hnext : l.next = post.head? := by
    have hskip : pre.find? (fun q => decide (q.2.1 ∉ l.calls.map Prod.fst)) = none := by
      refine List.find?_eq_none.2 fun q hq => ?_
      simpa using ⟨q.2.2, hpre q hq⟩
    rw [Called.next, hlive, List.find?_append, hskip, Option.none_or]
    cases post with
    | nil => rfl
    | cons q post =>
      refine List.find?_cons_of_pos ?_
      have hq := hpost q List.mem_cons_self
      have : ∀ g, (q.2.1, g) ∉ l.calls := fun g hg => Nat.lt_irrefl _ (hq (q.2.1, g) hg)
      simpa using this
  cases post with
  | nil =>
    have hnone : l.next = none := hnext
    have hsame : l.callNext = l := by simp [Called.callNext, hnone]
    refine ⟨_, rfl, ?_, by rw [hnone]; rfl⟩
    rw [hsame]
    exact ⟨hex, hn, horder, hfresh, hcalls, hcalled, by simp⟩
  | cons q post =>
    have hsome : l.next = some q := hnext
    have hq : q ∈ l.live := hlive ▸ List.mem_append_right _ List.mem_cons_self
    have hslot : f.signal.slot q.1 = some q.2.2 := hex.slots (q.1, q.2.2) (List.mem_map.2 ⟨q, hq, rfl⟩)
    have hcallNext : l.callNext = { l with calls := l.calls ++ [q.2] } := by simp [Called.callNext, hsome]
    refine ⟨{ f with current := some q.1, called := f.called ++ [q.2.2] }, ?_, ?_, by rw [hsome]; rfl⟩
    · rw [List.map_cons, Firing.callFrom, hslot]
    rw [hcallNext]
    refine ⟨hex, hn, horder, hfresh, ?_, ?_, ?_⟩
    · rw [List.map_append, List.pairwise_append]
      refine ⟨hcalls, List.pairwise_singleton _ _, fun n hn m hm => ?_⟩
      obtain ⟨k, hk, rfl⟩ := List.mem_map.1 hn
      obtain rfl : m = q.2.1 := by simpa using hm
      exact hpost q List.mem_cons_self k hk
    · rw [hcalled, List.map_append]
      rfl
    · intro c hc
      obtain rfl : q.1 = c := Option.some.inj hc
      refine ⟨q.2, hq, List.mem_append_right _ List.mem_cons_self, fun k hk => ?_, fun q' hq' hle => ?_⟩
      · rcases List.mem_append.1 hk with hk | hk
        · exact Nat.le_of_lt (hpost q List.mem_cons_self k hk)
        · exact Nat.le_of_eq (congrArg Prod.fst (List.mem_singleton.1 hk))
      · -- what is live up to `q` was before it, or is `q`
        rw [hlive, List.map_append, List.pairwise_append, List.map_cons, List.pairwise_cons] at horder
        rw [hlive] at hq'
        rcases List.mem_append.1 hq' with hq' | hq'
        · exact List.mem_append_left _ (hpre q' hq')
        · rcases List.mem_cons.1 hq' with rfl | hq'
          · exact List.mem_append_right _ List.mem_cons_self
          · have := horder.2.1.1 _ (List.mem_map_of_mem hq')
            omega

theorem Tracks.linked {f : Firing σ} {l : Called σ} (h : Tracks f l) : f.signal.connections = l.live.map Prod.fst := by
  rw [h.exact.linked, Queue.map_fst_forget]

/-- **A call begins with the first live slot.** -/
theorem Tracks.fire (std : MovedFrom σ) {f : Firing σ} {l : Called σ} (h : Tracks f l) :
    ∃ f', f.step std .fire = .ok f' ∧ Tracks f' (Called.callNext { l with calls := [] }) ∧
      f'.current = (Called.next { l with calls := [] }).map Prod.fst := by
  rw [Firing.step, h.linked]
  exact callFrom_tracks (f := { f with called := [] }) (l := { l with calls := [] }) [] l.live h.exact h.numbered
    h.order h.fresh List.Pairwise.nil rfl rfl (by simp) (by simp)

theorem Tracks.current_mem {f : Firing σ} {l : Called σ} (h : Tracks f l) {c : Nat} (hc : f.current = some c) :
    c ∈ f.signal.connections := by
  obtain ⟨k, hk, -⟩ := h.current c hc
  rw [h.linked]
  exact List.mem_map.2 ⟨_, hk, rfl⟩

/-- **When a slot returns the first live one that has not been called is called.** -/
theorem Tracks.advance (std : MovedFrom σ) {f : Firing σ} {l : Called σ} (h : Tracks f l) {c : Nat}
    (hc : f.current = some c) :
    ∃ f', f.step std .advance = .ok f' ∧ Tracks f' l.callNext ∧ f'.current = l.next.map Prod.fst := by
  have hlinked := h.linked
  obtain ⟨k, hk, -, hlast, hbefore⟩ := h.current c hc
  obtain ⟨pre, post, hlive⟩ := List.append_of_mem hk
  have horder := h.order
  have honce := h.exact.once
  simp only [hlinked, hlive, List.map_append, List.map_cons] at honce horder
  have hafter : after f.signal.connections c = post.map Prod.fst := by
    have hnot : c ∉ pre.map Prod.fst := fun hmem =>
      (List.nodup_append.1 honce).2.2 c hmem c List.mem_cons_self rfl
    have hskip : ∀ x ∈ pre.map Prod.fst, decide (x ≠ c) = true := by
      intro x hx
      have hne : x ≠ c := fun he => hnot (he ▸ hx)
      simpa using hne
    rw [after, hlinked, hlive, List.map_append, List.map_cons, List.dropWhile_append_of_pos hskip]
    simp
  simp only [Firing.step, hc, if_pos (h.current_mem hc), hafter]
  rw [List.pairwise_append, List.pairwise_cons] at horder
  refine callFrom_tracks (pre ++ [(c, k)]) post h.exact h.numbered h.order h.fresh h.calls h.called
    (by simpa using hlive) (fun q hq => ?_) fun q hq k' hk' => ?_
  · have hmem : q ∈ l.live := by
      rw [hlive, List.append_cons]
      exact List.mem_append_left _ hq
    refine hbefore q hmem ?_
    rcases List.mem_append.1 hq with hq | hq
    · exact Nat.le_of_lt (horder.2.2 _ (List.mem_map_of_mem hq) _ List.mem_cons_self)
    · exact Nat.le_of_eq (congrArg (fun q => q.2.1) (List.mem_singleton.1 hq))
  · exact Nat.lt_of_le_of_lt (hlast k' hk') (horder.2.1.1 _ (List.mem_map_of_mem hq))

theorem tracks_step {f f' : Firing σ} {l : Called σ} (h : Tracks f l) {ev : Firing.Event σ}
    (hev : f.Permits std ev) (hs : f.step std ev = .ok f') : Tracks f' (Called.note f ev f' l) := by
  cases ev with
  | edit ev =>
    cases hs
    exact h.edit hev.1 hev.2.1 hev.2.2
  | fire =>
    obtain ⟨f₁, hf₁, ht, -⟩ := h.fire std
    obtain rfl : f₁ = f' := Except.ok.inj (hf₁.symm.trans hs)
    exact ht
  | advance =>
    obtain ⟨c, hc⟩ := Option.isSome_iff_exists.1 hev.1
    obtain ⟨f₁, hf₁, ht, -⟩ := h.advance std hc
    obtain rfl : f₁ = f' := Except.ok.inj (hf₁.symm.trans hs)
    exact ht

theorem run_tracks {f : Firing σ} {evs : List (Firing.Event σ)}
    (h : Run (Firing.Permits std) (Firing.step std) {} evs f) : Tracks f (Firing.log std evs) := by
  refine Run.recorded Tracks ?_ h tracks_init
  intro f l ev f' ht hev hs
  exact tracks_step ht hev hs

theorem mem_map_swap {l : List Nat} {c c' x : Nat} : x ∈ l.map (Equiv.swap c' c) ↔ Equiv.swap c' c x ∈ l := by
  rw [List.mem_map]
  constructor
  · rintro ⟨y, hy, rfl⟩
    rwa [Equiv.swap_apply_self]
  · intro hx
    exact ⟨_, hx, Equiv.swap_apply_self ..⟩

/-- `swap_nodes` takes `c` out of the list just when it puts a node in its place that was not linked. -/
theorem notMem_map_swap {l : List Nat} {c d d' : Nat} (hc : c ∈ l) :
    c ∉ l.map (Equiv.swap d' d) ↔ d = c ∧ d' ∉ l ∨ d' = c ∧ d ∉ l := by
  rw [mem_map_swap, Equiv.swap_apply_def]
  by_cases hd' : c = d'
  · subst hd'
    simp [hc]
  · by_cases hd : c = d
    · subst hd
      simp [hd', hc]
    · simp [hd', hd, Ne.symm hd', Ne.symm hd, hc]

/-- The node is at none of the list just when it was destroyed or its place was given to another. -/
theorem Tracks.lost_iff (std : MovedFrom σ) {f : Firing σ} {l : Called σ} (h : Tracks f l) {c : Nat}
    (hc : f.current = some c) (ev : Signal.Event σ) :
    c ∉ (f.signal.step std ev).connections ↔ f.signal.Displaces c ev := by
  have hmem : c ∈ f.signal.connections := h.current_mem hc
  have hmade := h.exact.made_notMem h.numbered
  cases ev with
  | construct => simpa [Signal.step, Signal.construct, Displaces] using hmem
  | connect g => simp [Signal.step, Signal.connect, Displaces, hmem]
  | moveConstruct d =>
    have hconn : (f.signal.step std (.moveConstruct d)).connections =
        f.signal.connections.map (Equiv.swap d f.signal.made) := by
      simp [Signal.step, Signal.moveConstruct, swapNodes, Signal.construct]
    have hne : f.signal.made ≠ c := fun he => hmade (he ▸ hmem)
    rw [hconn, notMem_map_swap hmem]
    simp [Displaces, hne, hmade]
  | moveAssign d d' =>
    have hconn : (f.signal.step std (.moveAssign d d')).connections =
        f.signal.connections.map (Equiv.swap d' d) := by
      simp [Signal.step, Signal.moveAssign, swapNodes]
    rw [hconn, notMem_map_swap hmem]
    rfl
  | moveAssignTemporary d d' =>
    have hconn : (f.signal.step std (.moveAssignTemporary d d')).connections =
        (f.signal.connections.map (Equiv.swap d' d)).filter (· ≠ d') := by
      simp [Signal.step, Signal.destroy, Signal.moveAssign, swapNodes]
    rw [hconn, List.mem_filter, not_and_or, notMem_map_swap hmem]
    simp only [Displaces, decide_eq_true_eq, not_not]
    tauto
  | destroy d =>
    rw [show (f.signal.step std (.destroy d)).connections = f.signal.connections.filter (· ≠ d) from rfl,
      List.mem_filter, not_and_or]
    simp [Displaces, hmem, Eq.comm (a := c)]

/-- **While a signal is being called its slots can connect, move and destroy any `Connection` but the
one being called,** as long as they keep list and slots in agreement (`Clean`). The call never fails then;
in every state it has called live slots only, in the order they were connected in and none twice; the next
one it calls is the first live one it has not called, those connected meanwhile included; and it ends only
when all that are live have been called. A slot leaves the iterator dangling just when it destroys its own
`Connection` or has another node put in its place: by moving it into a new object, or by an assignment between
it and an object that is not linked. -/
theorem firing_exact (std : MovedFrom σ) {f : Firing σ} {evs : List (Firing.Event σ)}
    (h : Run (Firing.Permits std) (Firing.step std) {} evs f) :
    f.called = (Firing.log std evs).calls.map Prod.snd ∧
      ((Firing.log std evs).calls.map Prod.fst).Pairwise (· < ·) ∧
      (f.current = none → ∃ f', f.step std .fire = .ok f' ∧
        f'.current = (Firing.log std evs).live.head?.map Prod.fst ∧
        f'.called = (Firing.log std evs).live.head?.toList.map fun q => q.2.2) ∧
      ∀ c, f.current = some c →
        (∃ f', f.step std .advance = .ok f' ∧ f'.current = (Firing.log std evs).next.map Prod.fst ∧
          f'.called = f.called ++ (Firing.log std evs).next.toList.map (fun q => q.2.2) ∧
          (f'.current = none →
            ∀ q ∈ (Firing.log std evs).live, q.2.1 ∈ (Firing.log std evs).calls.map Prod.fst)) ∧
        ∀ ev, Firing.step std { f with signal := f.signal.step std ev } .advance = .error .dangling ↔
          f.signal.Displaces c ev := by
  have ht := run_tracks h
  generalize Firing.log std evs = l at ht ⊢
  refine ⟨ht.called, ht.calls, fun _ => ?_, fun c hc => ⟨?_, fun ev => ?_⟩⟩
  · obtain ⟨f', hf', ht', hcur⟩ := ht.fire std
    have hnext : Called.next { l with calls := [] } = l.live.head? := by
      unfold Called.next
      cases l.live <;> simp
    refine ⟨f', hf', by rw [hcur, hnext], ?_⟩
    rw [ht'.called, Called.callNext, hnext]
    simp
  · obtain ⟨f', hf', ht', hcur⟩ := ht.advance std hc
    refine ⟨f', hf', hcur, ?_, fun hnone q hq => ?_⟩
    · rw [ht'.called, ht.called, Called.callNext]
      simp
    · rw [hcur, Option.map_eq_none_iff] at hnone
      simpa using List.find?_eq_none.1 hnone q hq
  · rw [← ht.lost_iff std hc ev]
    exact Firing.advance_dangling_iff hc

/-- The first of three slots destroys the second `Connection` and connects a fourth, which is called after
the third, when that has moved the first. -/
theorem firing_exact_edits : ∃ f : Firing Nat, f.current = some 3 ∧ f.called = [10, 12, 13] ∧
    ∃ f', f.step (.libstdcxx Nat) .advance = .ok f' ∧ f'.current = none ∧ f'.called = [10, 12, 13] := by
  obtain ⟨f, hr, hcur, hcalled⟩ := exists_run (Firing.Permits (.libstdcxx Nat))
    (Firing.step (.libstdcxx Nat)) {}
    [.edit (.connect (some 10)), .edit (.connect (some 11)), .edit (.connect (some 12)), .fire,
      .edit (.destroy 1), .edit (.connect (some 13)), .advance, .edit (.moveConstruct 0), .advance]
    (fun f => f.current = some 3 ∧ f.called = [10, 12, 13]) ⟨_, rfl, by decide⟩
  obtain ⟨-, -, -, hadv⟩ := firing_exact (.libstdcxx Nat) hr
  obtain ⟨⟨f', hf', hcur', hcalled', -⟩, -⟩ := hadv 3 hcur
  have hend : (Firing.log (.libstdcxx Nat) [.edit (.connect (some 10)), .edit (.connect (some 11)),
      .edit (.connect (some 12)), .fire, .edit (.destroy 1), .edit (.connect (some 13)), .advance,
      .edit (.moveConstruct 0), .advance]).next = none := by decide
  rw [hend] at hcur' hcalled'
  exact ⟨f, hcur, hcalled, f', hf', hcur', by simpa [hcalled] using hcalled'⟩

end Signal

end AsioUtp
