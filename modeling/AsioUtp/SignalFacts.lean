/-
What a `Signal` is for, and when the code does it.

The abstract model is the list of the slots to be called, each beside the
`Connection` that holds it: `connect` adds one at the end, a move hands one to
another `Connection`, and what a destroyed `Connection` held, or one assigned
over, is gone. The intrusive list and the `_slot`s agree with it along every
run in which no `Connection` that is still linked is assigned over by one that
stays alive, and no empty function is connected (`signal_exact`). A step of
either kind breaks the agreement: the moved-from `Connection` takes the node
the target had, with whatever its slot was left with.
-/
import AsioUtp.Signal
import Mathlib.Data.List.Nodup

namespace AsioUtp

open Machine

namespace Signal

variable {σ : Type} {std : MovedFrom σ}

/-! ## The slots to be called -/

/-- The slots live, in the order they were connected in, with the `Connection` holding each. -/
abbrev Held (σ : Type) := List (Nat × σ)

/-- What `c` holds is gone. -/
def Held.drop (l : Held σ) (c : Nat) : Held σ := l.filter fun q => q.1 ≠ c

/-- What `c'` holds is held by `c`. -/
def Held.handOver (l : Held σ) (c' c : Nat) : Held σ := l.map fun q => (if q.1 = c' then c else q.1, q.2)

/-- `c` takes over from `c'`, and what it held itself is gone. -/
def Held.assign (l : Held σ) (c c' : Nat) : Held σ :=
  if c = c' then l else (l.drop c).handOver c' c

/-- A signal with the slots that should be called. -/
structure Followed (σ : Type) where
  signal : Signal σ := {}
  live : Held σ := []

namespace Followed

/-- The slots live after `ev`. -/
def record (t : Followed σ) : Event σ → Held σ
  | .construct => t.live
  | .connect f => t.live ++ f.toList.map (t.signal.made, ·)
  | .moveConstruct c => t.live.handOver c t.signal.made
  | .moveAssign c c' => t.live.assign c c'
  | .moveAssignTemporary c c' => t.live.assign c c'
  | .destroy c => t.live.drop c

def next (std : MovedFrom σ) (t : Followed σ) (ev : Event σ) : Followed σ :=
  { signal := t.signal.step std ev, live := t.record ev }

def step (std : MovedFrom σ) (t : Followed σ) (ev : Event σ) : Except Fault (Followed σ) :=
  .ok (t.next std ev)

/-- The `Connection`s linked are those that hold a live slot, each linked once, with that slot. -/
structure Exact (t : Followed σ) : Prop where
  linked : t.signal.connections = t.live.map Prod.fst
  once : t.signal.connections.Nodup
  slots : ∀ q ∈ t.live, t.signal.slot q.1 = some q.2

end Followed

/-- The function connected is not empty, and a `Connection` assigned over is not linked, or is
assigned from a temporary, or from itself where that leaves its function as it was. -/
def Clean (std : MovedFrom σ) (s : Signal σ) : Event σ → Prop
  | .connect f => f.isSome
  | .moveAssign c c' => c ∉ s.connections ∨ c = c' ∧ ∀ f ∈ s.slot c, std.self f = some f
  | _ => True

instance [DecidableEq σ] (std : MovedFrom σ) (s : Signal σ) : (ev : Event σ) → Decidable (s.Clean std ev)
  | .connect _ => inferInstanceAs (Decidable (_ = true))
  | .moveAssign _ _ => inferInstanceAs (Decidable (_ ∨ _))
  | .construct | .moveConstruct _ | .moveAssignTemporary _ _ | .destroy _ => inferInstanceAs (Decidable True)

/-! ## Slots and objects -/

@[simp] theorem slot_setSlot (s : Signal σ) (c x : Nat) (f : Option σ) :
    (s.setSlot c f).slot x = if x = c then f else s.slot x := by
  by_cases hx : x = c <;> simp [slot, setSlot, Function.update, hx]

@[simp] theorem connections_setSlot (s : Signal σ) (c : Nat) (f : Option σ) :
    (s.setSlot c f).connections = s.connections := rfl

@[simp] theorem connections_moveSlot (s : Signal σ) (c c' : Nat) :
    (s.moveSlot std c c').connections = s.connections := by
  unfold moveSlot
  split <;> rfl

@[simp] theorem slot_swapNodes (s : Signal σ) (c c' x : Nat) : (s.swapNodes c c').slot x = s.slot x := rfl

theorem slot_destroy {s : Signal σ} {c x : Nat} (hx : x ≠ c) : (s.destroy c).slot x = s.slot x := by
  simp [slot, destroy, hx]

/-- After a move between two objects the target has the slot and the others are as they were. -/
theorem slot_moveSlot {s : Signal σ} {c c' x : Nat} (hc : c ≠ c') (hx : x ≠ c') :
    (s.moveSlot std c c').slot x = if x = c then s.slot c' else s.slot x := by
  simp [moveSlot, hc, hx]

theorem alive_of_slot {s : Signal σ} {c : Nat} {f : σ} (h : s.slot c = some f) : s.Alive c := by
  unfold slot at h
  unfold Alive
  cases ho : s.objects c with
  | none => simp [ho] at h
  | some g => rfl

/-- The numbers from `made` on are not taken. -/
def Numbered (s : Signal σ) : Prop := ∀ c, s.Alive c → c < s.made

theorem Numbered.setSlot {s : Signal σ} (h : s.Numbered) {c : Nat} (hc : c < s.made) (f : Option σ) :
    (s.setSlot c f).Numbered := by
  intro x hx
  by_cases hxc : x = c
  · subst hxc
    exact hc
  · exact h x (by simpa [Alive, Signal.setSlot, hxc] using hx)

theorem Numbered.grow {s : Signal σ} (h : s.Numbered) (f : Option σ) (l : List Nat) :
    Numbered { s.setSlot s.made f with connections := l, made := s.made + 1 } := by
  intro x hx
  by_cases hxc : x = s.made
  · subst hxc
    exact Nat.lt_succ_self _
  · exact Nat.lt_succ_of_lt (h x (by simpa [Alive, Signal.setSlot, hxc] using hx))

theorem Numbered.destroy {s : Signal σ} (h : s.Numbered) (c : Nat) : (s.destroy c).Numbered := by
  intro x hx
  by_cases hxc : x = c
  · simp [Alive, Signal.destroy, hxc] at hx
  · exact h x (by simpa [Alive, Signal.destroy, hxc] using hx)

theorem Numbered.moveSlot {s : Signal σ} (h : s.Numbered) {c c' : Nat} (hc : c < s.made) (hc' : c' < s.made) :
    (s.moveSlot std c c').Numbered := by
  unfold Signal.moveSlot
  split
  · exact h.setSlot hc _
  · exact (h.setSlot hc _).setSlot hc' _

theorem Numbered.step {s : Signal σ} (h : s.Numbered) {ev : Event σ} (hen : s.Enabled ev) :
    (s.step std ev).Numbered := by
  cases ev with
  | construct => exact h.grow none s.connections
  | connect f => exact h.grow f _
  | moveConstruct c =>
    have hn : s.construct.Numbered := h.grow none s.connections
    exact hn.moveSlot (Nat.lt_succ_self _) (Nat.lt_succ_of_lt (h c hen))
  | moveAssign c c' => exact h.moveSlot (h c hen.1) (h c' hen.2)
  | moveAssignTemporary c c' =>
    have hn : (s.moveAssign std c c').Numbered := h.moveSlot (h c hen.1) (h c' hen.2.1)
    exact hn.destroy c'
  | destroy c => exact h.destroy c

/-! ## The list and the slots held -/

/-- For a node other than `c`, taking the place of `c'` is all an exchange with `c` does. -/
theorem swap_of_ne {c c' x : Nat} (hx : x ≠ c) : Equiv.swap c' c x = if x = c' then c else x := by
  by_cases hx' : x = c'
  · subst hx'
    rw [Equiv.swap_apply_left, if_pos rfl]
  · rw [Equiv.swap_apply_of_ne_of_ne hx' hx, if_neg hx']

theorem Held.map_fst_handOver (l : Held σ) (c' c : Nat) :
    (l.handOver c' c).map Prod.fst = (l.map Prod.fst).map fun x => if x = c' then c else x := by
  simp [Held.handOver, Function.comp_def]

theorem Held.map_fst_drop (l : Held σ) (c : Nat) :
    (l.drop c).map Prod.fst = (l.map Prod.fst).filter (· ≠ c) := by
  rw [Held.drop, List.filter_map]
  rfl

theorem Held.drop_eq_self {l : Held σ} {c : Nat} (hc : c ∉ l.map Prod.fst) : l.drop c = l := by
  refine List.filter_eq_self.2 fun q hq => ?_
  have : q.1 ≠ c := fun he => hc (List.mem_map.2 ⟨q, hq, he⟩)
  simpa using this

/-- The node of `c'` given to `c`, which has none. -/
theorem map_swap_eq {l : List Nat} {c c' : Nat} (hc : c ∉ l) :
    l.map (Equiv.swap c' c) = l.map fun x => if x = c' then c else x :=
  List.map_congr_left fun _ hx => swap_of_ne fun he => hc (he ▸ hx)

/-- The nodes exchanged, and that of `c'`, the one `c` had, unlinked. -/
theorem filter_map_swap {l : List Nat} {c c' : Nat} :
    (l.map (Equiv.swap c' c)).filter (· ≠ c') = (l.filter (· ≠ c)).map fun x => if x = c' then c else x := by
  rw [List.filter_map]
  have hp : l.filter ((fun x => decide (x ≠ c')) ∘ Equiv.swap c' c) = l.filter (· ≠ c) := by
    refine List.filter_congr fun x _ => decide_eq_decide.2 (not_congr ?_)
    rw [← Equiv.eq_symm_apply, Equiv.symm_swap, Equiv.swap_apply_left]
  rw [hp]
  refine List.map_congr_left fun x hx => swap_of_ne ?_
  simpa using (List.mem_filter.1 hx).2

theorem Held.mem_handOver {l : Held σ} {c' c : Nat} {q : Nat × σ} (hq : q ∈ l.handOver c' c) :
    (q.1 = c ∧ (c', q.2) ∈ l) ∨ (q.1 ≠ c' ∧ q ∈ l) := by
  obtain ⟨⟨x, f⟩, hr, rfl⟩ := List.mem_map.1 hq
  by_cases hx : x = c'
  · subst hx
    exact .inl ⟨by simp, hr⟩
  · exact .inr ⟨by simp [hx], by simpa [hx] using hr⟩

/-- The call runs through the slots of `l` if these are what the linked objects have. -/
theorem call_ok_iff {s : Signal σ} {l : Held σ} (h : s.connections = l.map Prod.fst) :
    s.call = .ok (l.map Prod.snd) ↔ ∀ q ∈ l, s.slot q.1 = some q.2 := by
  unfold call
  rw [Except.mapM_ok_iff, h, List.forall₂_map_left_iff, List.forall₂_map_right_iff, List.forall₂_same]
  refine forall₂_congr fun q _ => ?_
  cases s.slot q.1 <;> simp

theorem length_of_call {s : Signal σ} {l : List σ} (h : s.call = .ok l) : s.connections.length = l.length :=
  (Except.mapM_ok_iff.1 h).length_eq

/-- A move hands the slot on; the target's own is gone. -/
theorem slots_moveSlot (std : MovedFrom σ) {s : Signal σ} {l : Held σ} {c c' : Nat}
    (h : ∀ q ∈ l, s.slot q.1 = some q.2) (hc : c ≠ c') :
    ∀ q ∈ (l.drop c).handOver c' c, (s.moveSlot std c c').slot q.1 = some q.2 := by
  intro q hq
  rcases Held.mem_handOver hq with ⟨hqc, hmem⟩ | ⟨hne, hmem⟩
  · have hs := h _ (List.mem_of_mem_filter hmem)
    rw [slot_moveSlot hc (hqc ▸ hc), if_pos hqc]
    exact hs
  · have hqc : q.1 ≠ c := by simpa using (List.mem_filter.1 hmem).2
    rw [slot_moveSlot hc hne, if_neg hqc]
    exact h q (List.mem_of_mem_filter hmem)

namespace Followed

/-! ## One step -/

theorem Exact.lt_made {t : Followed σ} (h : t.Exact) (hn : t.signal.Numbered) {c : Nat}
    (hc : c ∈ t.signal.connections) : c < t.signal.made := by
  rw [h.linked] at hc
  obtain ⟨q, hq, rfl⟩ := List.mem_map.1 hc
  exact hn _ (alive_of_slot (h.slots q hq))

theorem Exact.made_notMem {t : Followed σ} (h : t.Exact) (hn : t.signal.Numbered) :
    t.signal.made ∉ t.signal.connections :=
  fun hc => Nat.lt_irrefl _ (h.lt_made hn hc)

/-- The slots held are not those of an object constructed now. -/
theorem Exact.slots_setSlot {t : Followed σ} (h : t.Exact) (hn : t.signal.Numbered) (f : Option σ) :
    ∀ q ∈ t.live, (t.signal.setSlot t.signal.made f).slot q.1 = some q.2 := by
  intro q hq
  have hne : q.1 ≠ t.signal.made := by
    intro he
    refine h.made_notMem hn ?_
    rw [h.linked, ← he]
    exact List.mem_map_of_mem hq
  rw [slot_setSlot, if_neg hne]
  exact h.slots q hq

theorem exact_construct {t : Followed σ} (h : t.Exact) (hn : t.signal.Numbered) :
    (t.next std .construct).Exact :=
  ⟨h.linked, h.once, h.slots_setSlot hn none⟩

theorem exact_connect {t : Followed σ} (h : t.Exact) (hn : t.signal.Numbered) (f : σ) :
    (t.next std (.connect (some f))).Exact where
  linked := by simp [next, Signal.step, Signal.connect, record, h.linked]
  once := by
    show (t.signal.connections ++ [t.signal.made]).Nodup
    rw [← List.concat_eq_append, List.nodup_concat]
    exact ⟨h.made_notMem hn, h.once⟩
  slots := by
    intro q hq
    rcases List.mem_append.1 hq with hq | hq
    · exact h.slots_setSlot hn (some f) q hq
    · obtain rfl : q = (t.signal.made, f) := by simpa using hq
      exact (slot_setSlot t.signal _ _ (some f)).trans (if_pos rfl)

theorem exact_moveConstruct {t : Followed σ} (h : t.Exact) (hn : t.signal.Numbered) {c : Nat}
    (hc : t.signal.Alive c) : (t.next std (.moveConstruct c)).Exact := by
  have hm := h.made_notMem hn
  have hconn : (t.next std (.moveConstruct c)).signal.connections =
      t.signal.connections.map (Equiv.swap c t.signal.made) := by
    simp [next, Signal.step, Signal.moveConstruct, swapNodes, Signal.construct]
  refine ⟨?_, ?_, ?_⟩
  · rw [hconn, map_swap_eq hm, h.linked]
    exact (Held.map_fst_handOver _ _ _).symm
  · rw [hconn]
    exact List.Nodup.map (Equiv.injective _) h.once
  · have hslots : ∀ q ∈ t.live, t.signal.construct.slot q.1 = some q.2 := h.slots_setSlot hn none
    have hd : t.live.drop t.signal.made = t.live := Held.drop_eq_self (h.linked ▸ hm)
    have := slots_moveSlot std hslots (Nat.ne_of_gt (hn c hc))
    rw [hd] at this
    exact this

/-- The connections after an assignment from another object. -/
theorem connections_moveAssign (t : Followed σ) (c c' : Nat) :
    (t.next std (.moveAssign c c')).signal.connections = t.signal.connections.map (Equiv.swap c' c) := by
  simp [next, Signal.step, Signal.moveAssign, swapNodes]

/-- An assignment over an object that is not linked. -/
theorem exact_moveAssign {t : Followed σ} (h : t.Exact) {c c' : Nat} (hc : c ∉ t.signal.connections)
    (hne : c ≠ c') : (t.next std (.moveAssign c c')).Exact := by
  have hd : t.live.drop c = t.live := Held.drop_eq_self (h.linked ▸ hc)
  have hlive : (t.next std (.moveAssign c c')).live = (t.live.drop c).handOver c' c := if_neg hne
  refine ⟨?_, ?_, ?_⟩
  · rw [connections_moveAssign, map_swap_eq hc, h.linked, hlive, hd, Held.map_fst_handOver]
  · rw [connections_moveAssign]
    exact List.Nodup.map (Equiv.injective _) h.once
  · rw [hlive]
    exact slots_moveSlot std h.slots hne

/-- An assignment of an object to itself touches its own slot only. -/
theorem exact_moveAssign_self {t : Followed σ} (h : t.Exact) {c : Nat}
    (hself : c ∈ t.signal.connections → ∀ f ∈ t.signal.slot c, std.self f = some f) :
    (t.next std (.moveAssign c c)).Exact := by
  have hconn : (t.next std (.moveAssign c c)).signal.connections = t.signal.connections := by
    rw [connections_moveAssign, Equiv.swap_self]
    exact List.map_id _
  have hlive : (t.next std (.moveAssign c c)).live = t.live := if_pos rfl
  refine ⟨?_, ?_, ?_⟩
  · rw [hconn, hlive, h.linked]
  · rw [hconn]
    exact h.once
  · intro q hq
    rw [hlive] at hq
    have hslot := h.slots q hq
    have hs : (t.next std (.moveAssign c c)).signal.slot q.1 =
        if q.1 = c then (t.signal.slot c).bind std.self else t.signal.slot q.1 := by
      simp [next, Signal.step, Signal.moveAssign, moveSlot]
    rw [hs]
    split
    · next hqc =>
      rw [hqc] at hslot
      have hmem : c ∈ t.signal.connections := h.linked ▸ hqc ▸ List.mem_map_of_mem hq
      rw [hslot, Option.bind_some]
      exact hself hmem _ hslot
    · exact hslot

/-- The moved-from object goes, and with it the node that the target had. -/
theorem exact_moveAssignTemporary {t : Followed σ} (h : t.Exact) {c c' : Nat} (hne : c ≠ c') :
    (t.next std (.moveAssignTemporary c c')).Exact := by
  have hconn : (t.next std (.moveAssignTemporary c c')).signal.connections =
      (t.signal.connections.map (Equiv.swap c' c)).filter (· ≠ c') := by
    simp [next, Signal.step, Signal.destroy, Signal.moveAssign, swapNodes]
  have hlive : (t.next std (.moveAssignTemporary c c')).live = (t.live.drop c).handOver c' c := if_neg hne
  refine ⟨?_, ?_, ?_⟩
  · rw [hconn, filter_map_swap, h.linked, hlive, Held.map_fst_handOver, Held.map_fst_drop]
  · rw [hconn]
    exact (List.Nodup.map (Equiv.injective _) h.once).filter _
  · intro q hq
    rw [hlive] at hq
    -- `c'` holds nothing any more, so its destruction is not seen
    have hq' : q.1 ≠ c' := by
      rcases Held.mem_handOver hq with ⟨he, -⟩ | ⟨he, -⟩
      · exact he ▸ hne
      · exact he
    exact (slot_destroy hq').trans (slots_moveSlot std h.slots hne q hq)

theorem exact_destroy {t : Followed σ} (h : t.Exact) (c : Nat) : (t.next std (.destroy c)).Exact where
  linked := by
    show t.signal.connections.filter (· ≠ c) = _
    rw [h.linked]
    exact (Held.map_fst_drop _ _).symm
  once := h.once.filter _
  slots := by
    intro q hq
    obtain ⟨hq, hqc⟩ := List.mem_filter.1 hq
    exact (slot_destroy (by simpa using hqc)).trans (h.slots q hq)

/-- **A step that meets the condition keeps the agreement.** -/
theorem exact_next {t : Followed σ} (h : t.Exact) (hn : t.signal.Numbered) {ev : Event σ}
    (hen : t.signal.Enabled ev) (hcl : t.signal.Clean std ev) : (t.next std ev).Exact := by
  cases ev with
  | construct => exact exact_construct h hn
  | connect f =>
    obtain ⟨f, rfl⟩ := Option.isSome_iff_exists.1 hcl
    exact exact_connect h hn f
  | moveConstruct c => exact exact_moveConstruct h hn hen
  | moveAssign c c' =>
    by_cases hne : c = c'
    · subst hne
      refine exact_moveAssign_self h fun hmem => ?_
      rcases hcl with hc | ⟨-, hs⟩
      · exact absurd hmem hc
      · exact hs
    · rcases hcl with hc | ⟨he, -⟩
      · exact exact_moveAssign h hc hne
      · exact absurd he hne
  | moveAssignTemporary c c' => exact exact_moveAssignTemporary h hen.2.2
  | destroy c => exact exact_destroy h c

/-- **A step that does not meet the condition ends it:** the next call is not of the live slots. -/
theorem call_ne_of_not_clean {t : Followed σ} (h : t.Exact) {ev : Event σ} (hcl : ¬ t.signal.Clean std ev) :
    (t.next std ev).signal.call ≠ .ok ((t.next std ev).live.map Prod.snd) := by
  have hlen : t.signal.connections.length = t.live.length := by simp [h.linked]
  intro hcall
  have hcount := length_of_call hcall
  cases ev with
  | construct | moveConstruct | moveAssignTemporary | destroy => exact hcl trivial
  | connect f =>
    -- one more node, and no slot for it
    obtain rfl : f = none := by simpa [Clean] using hcl
    simp [next, Signal.step, Signal.connect, record, hlen] at hcount
  | moveAssign c c' =>
    obtain ⟨hmem, hself⟩ := not_or.1 hcl
    have hmem := not_not.1 hmem
    obtain ⟨q, hq, hqc⟩ := List.mem_map.1 (h.linked ▸ hmem)
    by_cases hne : c = c'
    · subst hne
      -- the slot is the only thing that can have changed
      refine hself ⟨rfl, fun f hf => ?_⟩
      have hconn : (t.next std (.moveAssign c c)).signal.connections = t.live.map Prod.fst := by
        rw [connections_moveAssign, Equiv.swap_self, ← h.linked]
        exact List.map_id _
      have hlive : (t.next std (.moveAssign c c)).live = t.live := if_pos rfl
      rw [hlive] at hcall
      have hslot := (call_ok_iff hconn).1 hcall q hq
      have hqf : q.2 = f := by
        have := h.slots q hq
        rw [hqc, hf] at this
        exact (Option.some.inj this).symm
      simpa [next, Signal.step, Signal.moveAssign, moveSlot, hqc, Option.mem_def.1 hf, hqf] using hslot
    · -- all nodes are still linked, the slot of `c` is gone
      have hlive : (t.next std (.moveAssign c c')).live = (t.live.drop c).handOver c' c := if_neg hne
      have hlt : (t.live.drop c).length < t.live.length :=
        List.length_filter_lt_length_iff_exists.2 ⟨q, hq, by simpa using hqc⟩
      rw [connections_moveAssign, hlive] at hcount
      simp only [List.length_map, Held.handOver] at hcount
      omega

/-- The events of a run that keeps to the condition. -/
def Orderly (std : MovedFrom σ) (t : Followed σ) (ev : Event σ) : Prop :=
  t.signal.Enabled ev ∧ t.signal.Clean std ev

instance [DecidableEq σ] (std : MovedFrom σ) (t : Followed σ) (ev : Event σ) : Decidable (t.Orderly std ev) :=
  inferInstanceAs (Decidable (_ ∧ _))

theorem reachable_exact {t : Followed σ} (h : Reachable (Orderly std) (step std) {} t) :
    t.Exact ∧ t.signal.Numbered := by
  refine h.invariant (fun t => t.Exact ∧ t.signal.Numbered) ?_ ⟨⟨rfl, List.nodup_nil, by simp⟩, ?_⟩
  · intro t ev t' ht hev hs
    cases hs
    exact ⟨exact_next ht.1 ht.2 hev.1 hev.2, ht.2.step hev.1⟩
  · intro c hc
    cases hc

end Followed

end Signal

open Signal Signal.Followed

/-- **The signal calls each live slot once, in order, as long as no linked `Connection` is assigned
over by one that stays alive and no empty function is connected.** In a state such a run ends in the
next step leads to one where this holds again exactly if it meets the condition too. -/
theorem signal_exact {σ : Type} (std : MovedFrom σ) {t : Followed σ}
    (h : Reachable (Orderly std) (Followed.step std) {} t) :
    t.Exact ∧ t.signal.call = .ok (t.live.map Prod.snd) ∧
      ∀ ev, t.signal.Enabled ev →
        ((t.next std ev).signal.call = .ok ((t.next std ev).live.map Prod.snd) ↔ t.signal.Clean std ev) := by
  obtain ⟨hex, hn⟩ := reachable_exact h
  refine ⟨hex, (call_ok_iff hex.linked).2 hex.slots, fun ev hen => ⟨fun hcall => ?_, fun hcl => ?_⟩⟩
  · by_contra hcl
    exact call_ne_of_not_clean hex hcl hcall
  · have hex' := exact_next hex hn hen hcl
    exact (call_ok_iff hex'.linked).2 hex'.slots

/-- Three slots connected, the first moved into a default constructed `Connection` and that one on into a
new one, the second assigned over by what `connect` returns, the third destroyed. -/
theorem signal_exact_moves :
    ∃ t : Followed Nat, t.Exact ∧ t.live = [(4, 10), (1, 13)] ∧ t.signal.call = .ok [10, 13] := by
  obtain ⟨t, hr, hlive⟩ := exists_run (Orderly (.libstdcxx Nat)) (Followed.step (.libstdcxx Nat)) {}
    [.connect (some 10), .connect (some 11), .connect (some 12), .construct, .moveAssign 3 0,
      .moveConstruct 3, .connect (some 13), .moveAssignTemporary 1 5, .destroy 2]
    (fun t => t.live = [(4, 10), (1, 13)]) ⟨_, rfl, by decide⟩
  obtain ⟨hex, hcall, -⟩ := signal_exact (.libstdcxx Nat) ⟨_, hr⟩
  rw [hlive] at hcall
  exact ⟨t, hex, hlive, hcall⟩

/-- The first of two connected `Connection`s is assigned over from the second, which stays alive: it is
still linked, where the first was. If moved-from functions are empty the call fails; if they keep what
they held the slot is called twice. -/
theorem assigned_over_while_linked :
    (∃ t, Run (fun t ev => t.signal.Enabled ev) (Followed.step (.libstdcxx Nat)) {}
        [.connect (some 10), .connect (some 11), .moveAssign 0 1] t ∧
      t.signal.connections = [1, 0] ∧ t.signal.slot 1 = none ∧ t.live = [(0, 11)] ∧
      t.signal.call = .error (.assertion .signalCall)) ∧
    (∃ t, Run (fun t ev => t.signal.Enabled ev) (Followed.step ⟨some, some⟩) {}
        [.connect (some 10), .connect (some 11), .moveAssign 0 1] t ∧
      t.live = [(0, 11)] ∧ t.signal.call = .ok [11, 11]) :=
  ⟨⟨_, run_of_exec (by rfl), by decide, by decide, by decide, rfl⟩, ⟨_, run_of_exec (by rfl), by decide, rfl⟩⟩

end AsioUtp
