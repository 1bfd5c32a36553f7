/-
No orphaned states.

`no_orphans`: as long as nothing is assigned to a `udp_multiplexer` that has a
state, a state that no `udp_multiplexer` owns has been closed, and every call
made on it has had its handler posted, if no send was started over another.
A multiplexer is then released once nothing refers to it any more.

The conditions matter: an overwritten state is not closed, and since the
handler bound into its entry holds the state itself it keeps the multiplexer
and its port for good (`orphaned_state`). A `socket` that the library has
closed keeps its `_multiplexer` through `close`.
-/
import AsioUtp.Registry

namespace AsioUtp.Hub

open Machine

/-! ## Who owns a state -/

def stateAt (h : Hub) (m k : Nat) : State := (h.port m).states k

/-- Every state has one owner or has been closed. -/
structure Kempt (h : Hub) : Prop where
  closed : ∀ m k, (h.stateAt m k).owned = false → (h.stateAt m k).Closed
  owned : ∀ m k, (h.stateAt m k).owned = true ↔ ∃ o, h.stateOf o = some (m, k)
  unique : ∀ o o' r, h.stateOf o = some r → h.stateOf o' = some r → o = o'
  opened : ∀ m k, (h.stateAt m k).owned = true → m < h.created ∧ k < (h.port m).opened
  alive : ∀ m, (h.port m).alive = true → m < h.created
  multiplexers : ∀ o, h.madeMultiplexers ≤ o → h.multiplexers o = none
  sockets : ∀ v, h.madeSockets ≤ v → h.sockets v = none

theorem kempt_init : Kempt {} where
  closed m k _ := ⟨rfl, rfl, rfl⟩
  owned m k := by simp [stateAt, port, stateOf]
  unique o o' r h := by simp [stateOf] at h
  opened m k h := by simp [stateAt, port] at h
  alive m h := by simp [port] at h
  multiplexers o _ := rfl
  sockets v _ := rfl

/-- Every call pending in `h` still is, or its handler has been posted. -/
structure Tends (h h' : Hub) : Prop where
  created : h.created ≤ h'.created
  posted : ∀ m < h.created, (h.port m).posted ⊆ (h'.port m).posted
  keeps : ∀ m < h.created, ∀ k, Port.Keeps (h.port m) (h'.port m) k

theorem Tends.trans {h h' h'' : Hub} (t : Tends h h') (t' : Tends h' h'') : Tends h h'' where
  created := t.created.trans t'.created
  posted m hm := List.Subset.trans (t.posted m hm) (t'.posted m (hm.trans_le t.created))
  keeps m hm k := (t.keeps m hm k).trans (t'.keeps m (hm.trans_le t.created) k) (t'.posted m (hm.trans_le t.created))

theorem tends_of_ports {h h' : Hub} (hc : h.created ≤ h'.created) (hp : ∀ m < h.created, h'.port m = h.port m) :
    Tends h h' := by
  refine ⟨hc, fun m hm => ?_, fun m hm k => ?_⟩
  · rw [hp m hm]
    exact List.Subset.refl _
  · rw [hp m hm]
    exact Port.keeps_same rfl k

/-- What the steps are proved to do: keep the ownership and tend to the pending calls. -/
def Orderly (h h' : Hub) : Prop := Kempt h → Kempt h' ∧ Tends h h'

theorem Orderly.trans {h h' h'' : Hub} (p : Orderly h h') (p' : Orderly h' h'') : Orderly h h'' := by
  intro hk
  obtain ⟨hk', ht⟩ := p hk
  obtain ⟨hk'', ht'⟩ := p' hk'
  exact ⟨hk'', ht.trans ht'⟩

/-! ## The updates -/

theorem port_setPort (h : Hub) (m m' : Nat) (p : Port) :
    (h.setPort m p).port m' = if m' = m then p else h.port m' := by
  by_cases hm : m' = m <;> simp [setPort, port, hm]

theorem stateOf_setMultiplexer (h : Hub) (o o' : Nat) (x : Option UdpMultiplexer) :
    (h.setMultiplexer o x).stateOf o' = if o' = o then x.bind UdpMultiplexer.state else h.stateOf o' := by
  by_cases ho : o' = o <;> simp [setMultiplexer, stateOf, ho]

/-- Nothing changes at the ports, and the states keep their owners or get others. -/
theorem orderly_owners {h h' : Hub} (hport : ∀ m, h'.port m = h.port m) (hc : h'.created = h.created)
    (hst : ∀ r, (∃ o, h'.stateOf o = some r) ↔ ∃ o, h.stateOf o = some r)
    (hu : Kempt h → ∀ o o' r, h'.stateOf o = some r → h'.stateOf o' = some r → o = o')
    (ho : Kempt h → ∀ o, h'.madeMultiplexers ≤ o → h'.multiplexers o = none)
    (hv : Kempt h → ∀ v, h'.madeSockets ≤ v → h'.sockets v = none) : Orderly h h' := by
  intro hk
  refine ⟨⟨?_, ?_, hu hk, ?_, ?_, ho hk, hv hk⟩, tends_of_ports hc.ge fun m _ => hport m⟩
  · intro m k
    simp only [stateAt, hport]
    exact hk.closed m k
  · intro m k
    simp only [stateAt, hport]
    exact (hk.owned m k).trans (hst (m, k)).symm
  · intro m k
    simp only [stateAt, hport, hc]
    exact hk.opened m k
  · intro m
    rw [hport, hc]
    exact hk.alive m

/-- No `udp_multiplexer` is touched. -/
theorem orderly_sockets {h h' : Hub} (hport : ∀ m, h'.port m = h.port m) (hc : h'.created = h.created)
    (hx : h'.multiplexers = h.multiplexers) (hn : h'.madeMultiplexers = h.madeMultiplexers)
    (hv : Kempt h → ∀ v, h'.madeSockets ≤ v → h'.sockets v = none) : Orderly h h' := by
  have hst : ∀ o, h'.stateOf o = h.stateOf o := fun o => by rw [stateOf, hx, stateOf]
  refine orderly_owners hport hc (fun r => by simp only [hst]) (fun hk => ?_) (fun hk => ?_) hv
  · simp only [hst]
    exact hk.unique
  · rw [hx, hn]
    exact hk.multiplexers

/-- A state, if there is one, passes from `a` to `b`, which had none. -/
theorem orderly_transfer {h h' : Hub} {a b : Nat} (hport : ∀ m, h'.port m = h.port m) (hc : h'.created = h.created)
    (hsock : h'.sockets = h.sockets) (hn : h'.madeSockets = h.madeSockets) (hb : Kempt h → h.stateOf b = none)
    (hst : ∀ o, h'.stateOf o = if o = a then none else if o = b then h.stateOf a else h.stateOf o)
    (ho : Kempt h → ∀ o, h'.madeMultiplexers ≤ o → h'.multiplexers o = none) (hab : a ≠ b) : Orderly h h' := by
  intro hk
  have hb := hb hk
  refine orderly_owners hport hc (fun r => ?_) (fun hk => ?_) ho (fun hk => ?_) hk
  · constructor
    · rintro ⟨o, hr⟩
      rw [hst] at hr
      split at hr
      · cases hr
      · split at hr
        · exact ⟨a, hr⟩
        · exact ⟨o, hr⟩
    · rintro ⟨o, hr⟩
      by_cases hoa : o = a
      · subst hoa
        exact ⟨b, by rw [hst, if_neg hab.symm, if_pos rfl]; exact hr⟩
      · have hob : o ≠ b := by
          rintro rfl
          rw [hb] at hr
          cases hr
        exact ⟨o, by rw [hst, if_neg hoa, if_neg hob]; exact hr⟩
  · intro o o' r hr hr'
    rw [hst] at hr hr'
    -- Only `a` and `b` differ, and of these one has no state before and the other none after.
    split at hr <;> split at hr' <;> try cases hr
    all_goals try cases hr'
    split at hr <;> split at hr'
    · subst_vars; rfl
    · next hne _ h => exact absurd (hk.unique _ _ _ hr' hr) (by assumption)
    · next hne _ _ h => exact absurd (hk.unique _ _ _ hr hr') (by assumption)
    · exact hk.unique _ _ _ hr hr'
  · rw [hsock, hn]
    exact hk.sockets

/-- A port goes on without making, closing or passing on a state. -/
theorem follows_setPort {h : Hub} {m : Nat} {p : Port} (hf : Port.Follows (h.port m) p) (m' : Nat) :
    Port.Follows (h.port m') ((h.setPort m p).port m') := by
  rw [port_setPort]
  split
  · next hm =>
    subst hm
    exact hf
  · exact Port.follows_same rfl rfl rfl (List.Subset.refl _)

theorem kempt_port {h : Hub} {m : Nat} {p : Port} (hk : Kempt h) (hf : Port.Follows (h.port m) p) :
    Kempt (h.setPort m p) := by
  have hport := follows_setPort hf
  refine ⟨fun m' k hown => ?_, fun m' k => ?_, hk.unique, fun m' k hown => ?_, fun m' ha => ?_, hk.multiplexers,
    hk.sockets⟩
  · have hown : (h.stateAt m' k).owned = false := by rw [← hown]; exact ((hport m').owned k).symm
    obtain ⟨himpl, hhandler, hpending⟩ := hk.closed m' k hown
    refine ⟨((hport m').impl k).trans himpl, ((hport m').handler k).trans hhandler, ?_⟩
    exact List.subset_nil.1 (by rw [← hpending]; exact (hport m').idle k hown)
  · rw [stateAt, (hport m').owned]
    exact hk.owned m' k
  · rw [(hport m').opened]
    exact hk.opened m' k (by rw [← hown]; exact ((hport m').owned k).symm)
  · exact hk.alive m' (by rw [← ha]; exact (hport m').alive.symm)

theorem orderly_port {h : Hub} {m : Nat} {p : Port} (hf : Port.Follows (h.port m) p)
    (hkeep : ∀ k, Port.Keeps (h.port m) p k) : Orderly h (h.setPort m p) := by
  intro hk
  refine ⟨kempt_port hk hf, le_rfl, fun m' _ => (follows_setPort hf m').posted, fun m' _ => ?_⟩
  rw [port_setPort]
  split
  · next hm =>
    subst hm
    exact hkeep
  · exact Port.keeps_same rfl

/-- State `k` of multiplexer `m` is given to `o` or taken from it; every
other state is left alone, and so is every other `udp_multiplexer`. -/
theorem orderly_change {h : Hub} {o m k : Nat} {p : Port} {x : UdpMultiplexer} (hm : m < h.created)
    (hmade : o < h.madeMultiplexers) (hbefore : h.stateOf o = none ∨ h.stateOf o = some (m, k))
    (hothers : ∀ o', o' ≠ o → h.stateOf o' ≠ some (m, k))
    (hafter : x.state = if (p.states k).owned then some (m, k) else none)
    (hstates : ∀ j, j ≠ k → p.states j = (h.port m).states j)
    (hclosed : (p.states k).owned = false → (p.states k).Closed)
    (hk : (p.states k).owned = true → k < p.opened) (hopened : (h.port m).opened ≤ p.opened)
    (hposted : (h.port m).posted ⊆ p.posted) (hkeeps : Port.Keeps (h.port m) p k) :
    Orderly h ((h.setPort m p).setMultiplexer o (some x)) := by
  intro hkempt
  have hport : ∀ m', ((h.setPort m p).setMultiplexer o (some x)).port m' = if m' = m then p else h.port m' :=
    fun m' => port_setPort h m m' p
  have hstate : ∀ m' j, (m', j) ≠ (m, k) →
      ((h.setPort m p).setMultiplexer o (some x)).stateAt m' j = h.stateAt m' j := by
    intro m' j hne
    rw [stateAt, hport]
    split
    · next hm' =>
      subst hm'
      exact hstates j fun hj => hne (by rw [hj])
    · rfl
  have hthis : ((h.setPort m p).setMultiplexer o (some x)).stateAt m k = p.states k := by
    rw [stateAt, hport, if_pos rfl]
  have hof : ∀ o', ((h.setPort m p).setMultiplexer o (some x)).stateOf o' =
      if o' = o then x.state else h.stateOf o' := fun o' => stateOf_setMultiplexer (h.setPort m p) o o' (some x)
  have honly : ∀ q, x.state = some q → q = (m, k) ∧ (p.states k).owned = true := by
    intro q hq
    rw [hafter] at hq
    split at hq
    · next hown =>
      cases hq
      exact ⟨rfl, hown⟩
    · cases hq
  refine ⟨⟨fun m' j => ?_, fun m' j => ?_, fun o₁ o₂ r => ?_, fun m' j => ?_, fun m' => ?_, fun o' ho' => ?_,
    hkempt.sockets⟩, ⟨le_rfl, fun m' _ => ?_, fun m' _ j => ?_⟩⟩
  · by_cases hkey : (m', j) = (m, k)
    · cases hkey
      rw [hthis]
      exact hclosed
    · rw [hstate m' j hkey]
      exact hkempt.closed m' j
  · simp only [hof]
    by_cases hkey : (m', j) = (m, k)
    · cases hkey
      rw [hthis]
      constructor
      · intro hown
        exact ⟨o, by rw [if_pos rfl, hafter, if_pos hown]⟩
      · rintro ⟨o', hr⟩
        split at hr
        · exact (honly _ hr).2
        · next hne => exact absurd hr (hothers o' hne)
    · -- Neither before nor after is this the state of `o`.
      rw [hstate m' j hkey, hkempt.owned m' j]
      refine exists_congr fun o' => ?_
      split
      · next ho' =>
        subst ho'
        refine iff_of_false (fun hr => ?_) fun hr => hkey (honly _ hr).1
        rcases hbefore with hb | hb <;> rw [hb] at hr <;> cases hr
        exact hkey rfl
      · rfl
  · simp only [hof]
    intro h₁ h₂
    split at h₁ <;> split at h₂
    · subst_vars; rfl
    · next hne =>
      obtain ⟨rfl, -⟩ := honly _ h₁
      exact absurd h₂ (hothers o₂ hne)
    · next hne _ =>
      obtain ⟨rfl, -⟩ := honly _ h₂
      exact absurd h₁ (hothers o₁ hne)
    · exact hkempt.unique o₁ o₂ r h₁ h₂
  · rw [hport]
    by_cases hkey : (m', j) = (m, k)
    · cases hkey
      rw [hthis, if_pos rfl]
      exact fun hown => ⟨hm, hk hown⟩
    · rw [hstate m' j hkey]
      intro hown
      obtain ⟨hc, hlt⟩ := hkempt.opened m' j hown
      refine ⟨hc, ?_⟩
      split
      · next hm' =>
        subst hm'
        exact hlt.trans_le hopened
      · exact hlt
  · rw [hport]
    split
    · next hm' => exact fun _ => hm' ▸ hm
    · exact hkempt.alive m'
  · have ho' : h.madeMultiplexers ≤ o' := ho'
    have hne : o' ≠ o := by omega
    simpa [setMultiplexer, setPort, hne] using hkempt.multiplexers o' ho'
  · rw [hport]
    split
    · next hm' => exact hm' ▸ hposted
    · exact List.Subset.refl _
  · rw [hport]
    split
    · next hm' =>
      subst hm'
      by_cases hj : j = k
      · exact hj ▸ hkeeps
      · intro call hc
        exact .inl (by rw [hstates j hj]; exact hc)
    · exact Port.keeps_same rfl j

theorem Kempt.made_of_live {h : Hub} (hk : Kempt h) {o : Nat} (ho : h.Live o) : o < h.madeMultiplexers := by
  by_contra hle
  simp [Live, hk.multiplexers o (by omega)] at ho

/-- A state nobody owns has been closed. -/
theorem Kempt.closed_of_free {h : Hub} (hk : Kempt h) {m k : Nat} (hfree : ∀ o, h.stateOf o ≠ some (m, k)) :
    (h.stateAt m k).Closed := by
  refine hk.closed m k ?_
  by_contra hown
  obtain ⟨o, ho⟩ := (hk.owned m k).1 (by simpa using hown)
  exact hfree o ho

/-- A state's number is free until it is made: nobody owns it and nothing is pending on it. -/
theorem Kempt.unopened {h : Hub} (hk : Kempt h) {m k : Nat} (hle : (h.port m).opened ≤ k) :
    (∀ o, h.stateOf o ≠ some (m, k)) ∧ (h.stateAt m k).Closed := by
  have hfree : ∀ o, h.stateOf o ≠ some (m, k) := by
    intro o ho
    have := (hk.opened m k ((hk.owned m k).2 ⟨o, ho⟩)).2
    omega
  exact ⟨hfree, hk.closed_of_free hfree⟩

/-- `o`, which has no state, gets a new one on multiplexer `m`. -/
theorem orderly_make {h : Hub} {o m : Nat} {ex : Option Nat} {p : Port} {s : State} (hm : m < h.created)
    (ho : h.stateOf o = none) (hmade : o < h.madeMultiplexers)
    (hst : p.states = Function.update (h.port m).states (h.port m).opened s) (hs : s.owned = true)
    (hop : p.opened = (h.port m).opened + 1) (hpost : p.posted = (h.port m).posted) :
    Orderly h ((h.setPort m p).setMultiplexer o (some ⟨ex, some (m, (h.port m).opened)⟩)) := by
  intro hk
  obtain ⟨hnew, hidle⟩ := hk.unopened (le_refl (h.port m).opened)
  have hown : (p.states (h.port m).opened).owned = true := by simpa [hst] using hs
  refine orderly_change hm hmade (.inl ho) (fun o' _ => hnew o') (by rw [if_pos hown])
    (fun j hj => by simp [hst, hj]) (by simp [hown]) (by omega) (by omega) (by rw [hpost]; exact List.Subset.refl _)
    (fun call hc => ?_) hk
  have hidle : ((h.port m).states (h.port m).opened).pending = [] := hidle.pending
  rw [hidle] at hc
  cases hc

theorem orderly_attach {h : Hub} {o m : Nat} {ex : Option Nat} (hm : m < h.created) (ho : h.stateOf o = none)
    (hmade : o < h.madeMultiplexers) : Orderly h (h.attach o ex m) :=
  orderly_make (s := { handler := true, impl := true, owned := true }) hm ho hmade rfl rfl rfl rfl

theorem orderly_close (h : Hub) (o : Nat) : Orderly h (h.close o) := by
  intro hk
  unfold close
  split
  · next ex m k hx =>
    have ho : h.stateOf o = some (m, k) := by simp [stateOf, hx]
    have hown : (h.stateAt m k).owned = true := (hk.owned m k).2 ⟨o, ho⟩
    obtain ⟨hclosed, hfree, hother, hkeeps, hposted, hopened, -⟩ := Port.close_states hown
    refine orderly_change (hk.opened m k hown).1 (hk.made_of_live (by simp [Live, hx])) (.inr ho)
      (fun o' hne hr => hne (hk.unique o' o _ hr ho)) (by simp [hfree]) hother (fun _ => hclosed) (by simp [hfree])
      hopened.ge hposted (hkeeps k) hk
  · exact orderly_sockets (fun _ => rfl) rfl rfl rfl Kempt.sockets hk

/-- A port with no state on it yet. -/
theorem orderly_create {h : Hub} {i : Impl} (hi : ∀ k, i.port.states k = {}) : Orderly h (h.create i) := by
  intro hk
  have hstate : ∀ m k, ((h.create i).stateAt m k).Closed ∧ m = h.created ∨
      (h.create i).stateAt m k = h.stateAt m k ∧ m ≠ h.created := by
    intro m k
    simp only [stateAt, create_port]
    split
    · next hm => exact .inl ⟨by rw [hi]; exact ⟨rfl, rfl, rfl⟩, hm⟩
    · next hm => exact .inr ⟨rfl, hm⟩
  have hfree : ∀ k, (h.stateAt h.created k).owned = false := by
    intro k
    by_contra hown
    exact Nat.lt_irrefl _ (hk.opened _ k (by simpa using hown)).1
  have hown : ∀ m k, ((h.create i).stateAt m k).owned = (h.stateAt m k).owned := by
    intro m k
    simp only [stateAt, create_port]
    split
    · next hm =>
      subst hm
      rw [hi]
      exact (hfree k).symm
    · rfl
  refine ⟨⟨fun m k => ?_, fun m k => ?_, hk.unique, fun m k => ?_, fun m => ?_, hk.multiplexers, hk.sockets⟩,
    tends_of_ports (Nat.le_succ _) fun m hm => ?_⟩
  · rcases hstate m k with ⟨hc, -⟩ | ⟨heq, -⟩
    · exact fun _ => hc
    · rw [heq]
      exact hk.closed m k
  · rw [hown]
    exact hk.owned m k
  · rw [hown]
    intro howned
    obtain ⟨hlt, hopened⟩ := hk.opened m k howned
    refine ⟨Nat.lt_succ_of_lt hlt, ?_⟩
    rw [create_port, if_neg hlt.ne]
    exact hopened
  · rw [create_port]
    split
    · next hm => exact fun _ => hm ▸ Nat.lt_succ_self _
    · exact fun ha => Nat.lt_succ_of_lt (hk.alive m ha)
  · rw [create_port, if_neg hm.ne]

theorem orderly_attachNull {h : Hub} {o : Nat} {ex : Option Nat} (ho : h.stateOf o = none)
    (hmade : o < h.madeMultiplexers) : Orderly h (h.attachNull o ex) := by
  have hcreate : Orderly h (h.create {}) := orderly_create fun _ => rfl
  have hport : (h.create {}).port h.created = { alive := false } := by rw [create_port, if_pos rfl]
  let p : Port := ({ alive := false, opened := 1 } : Port).setState 0 { handler := true, owned := true }
  have hmake : Orderly (h.create {}) (((h.create {}).setPort h.created p).setMultiplexer o
      (some ⟨ex, some (h.created, ((h.create {}).port h.created).opened)⟩)) :=
    orderly_make (s := { handler := true, owned := true }) (Nat.lt_succ_self _) ho hmade (by rw [hport]; rfl) rfl
      (by rw [hport]; rfl) (by rw [hport]; rfl)
  have heq : h.attachNull o ex = ((h.create {}).setPort h.created p).setMultiplexer o
      (some ⟨ex, some (h.created, ((h.create {}).port h.created).opened)⟩) := by
    rw [hport]
    simp [attachNull, create, setPort, p]
  rw [heq]
  exact hcreate.trans hmake

/-- The destructor leaves every state as it is. -/
theorem orderly_release (h : Hub) (m : Nat) : Orderly h (h.release m) := by
  have hport : ∀ m', ((h.release m).port m').states = (h.port m').states ∧
      ((h.release m).port m').opened = (h.port m').opened ∧ ((h.release m).port m').posted = (h.port m').posted ∧
      (((h.release m).port m').alive = true → (h.port m').alive = true) := by
    intro m'
    change ((h.setPort m { h.port m with alive := false }).port m').states = _ ∧ _
    rw [show (h.release m).port m' = (h.setPort m { h.port m with alive := false }).port m' from rfl, port_setPort]
    split
    · next hm => exact hm ▸ ⟨rfl, rfl, rfl, nofun⟩
    · exact ⟨rfl, rfl, rfl, id⟩
  have hstate : ∀ m' k, (h.release m).stateAt m' k = h.stateAt m' k := fun m' k => by
    rw [stateAt, (hport m').1, stateAt]
  intro hk
  refine ⟨⟨?_, ?_, hk.unique, ?_, fun m' ha => hk.alive m' ((hport m').2.2.2 ha), hk.multiplexers, hk.sockets⟩,
    ⟨le_rfl, fun m' _ => ?_, fun m' _ k => Port.keeps_same (hport m').1 k⟩⟩
  · simp only [hstate]
    exact hk.closed
  · simp only [hstate]
    exact hk.owned
  · simp only [hstate, (hport _).2.1]
    exact hk.opened
  · rw [(hport m').2.2.1]
    exact List.Subset.refl _

/-! ## The steps -/

theorem orderly_ec (h : Hub) (ec : ErrorCode) : Orderly h { h with ec } :=
  orderly_sockets (fun _ => rfl) rfl rfl rfl Kempt.sockets

theorem orderly_construct (h : Hub) (ex : Option Nat) : Orderly h (h.construct ex) := by
  intro hk
  have hst : ∀ o, (h.construct ex).stateOf o = h.stateOf o := by
    intro o
    rw [construct, stateOf_setMultiplexer]
    split
    · next ho =>
      subst ho
      simp [stateOf, hk.multiplexers _ le_rfl]
    · rfl
  refine orderly_owners (fun _ => rfl) rfl (fun r => by simp only [hst]) (fun hk => ?_) (fun hk o ho => ?_)
    Kempt.sockets hk
  · simp only [hst]
    exact hk.unique
  · have ho : h.madeMultiplexers + 1 ≤ o := ho
    have hne : o ≠ h.madeMultiplexers := by omega
    simpa [construct, setMultiplexer, hne] using hk.multiplexers o (by omega)

theorem orderly_moveConstruct {h : Hub} {o : Nat} (ho : h.Live o) : Orderly h (h.moveConstruct o) := by
  intro hk
  have hne : o ≠ h.madeMultiplexers := (hk.made_of_live ho).ne
  refine orderly_transfer (a := o) (b := h.madeMultiplexers) (fun _ => rfl) rfl rfl rfl (fun hk => ?_) (fun o' => ?_)
    (fun hk o' ho' => ?_) hne hk
  · simp [stateOf, hk.multiplexers _ le_rfl]
  · rw [moveConstruct, stateOf_setMultiplexer, stateOf_setMultiplexer]
    rfl
  · have ho' : h.madeMultiplexers + 1 ≤ o' := ho'
    have h₁ : o' ≠ h.madeMultiplexers := by omega
    have h₂ : o' ≠ o := by
      have := hk.made_of_live ho
      omega
    simpa [moveConstruct, setMultiplexer, h₁, h₂] using hk.multiplexers o' (by omega)

/-- Assigned to a `udp_multiplexer` without a state, the move leaves none behind. -/
theorem orderly_moveAssign {h : Hub} {o o' : Nat} (ho : h.Live o) (ho' : h.Live o')
    (hfree : o = o' ∨ h.stateOf o = none) : Orderly h (h.moveAssign o o') := by
  unfold moveAssign
  split
  · exact orderly_ec h h.ec
  · next hne =>
    have hnone := hfree.resolve_left hne
    have hab : h.abandon o = h := by simp [abandon, hnone]
    rw [hab]
    refine orderly_transfer (a := o') (b := o) (fun _ => rfl) rfl rfl rfl (fun _ => hnone) (fun j => ?_)
      (fun hk j hj => ?_) (Ne.symm hne)
    · rw [stateOf_setMultiplexer, stateOf_setMultiplexer]
      rfl
    · have hj : h.madeMultiplexers ≤ j := hj
      have h₁ : j ≠ o := ((hk.made_of_live ho).trans_le hj).ne'
      have h₂ : j ≠ o' := ((hk.made_of_live ho').trans_le hj).ne'
      simpa [setMultiplexer, h₁, h₂] using hk.multiplexers j hj

theorem close_stateOf (h : Hub) (o o' : Nat) :
    (h.close o).stateOf o' = if o' = o then none else h.stateOf o' := by
  unfold close
  split
  · rw [stateOf_setMultiplexer]
    rfl
  · next hx =>
    split
    · next ho =>
      subst ho
      change h.stateOf o' = none
      rcases hx' : h.multiplexers o' with _ | ⟨ex, _ | ⟨m, k⟩⟩
      · simp [stateOf, hx']
      · simp [stateOf, hx']
      · exact absurd hx' (hx ex m k)
    · rfl

theorem destroy_stateOf (h : Hub) (o o' : Nat) :
    (h.destroy o).stateOf o' = if o' = o then none else h.stateOf o' := by
  change ((h.close o).setMultiplexer o none).stateOf o' = _
  rw [stateOf_setMultiplexer, close_stateOf]
  split <;> rfl

theorem orderly_destroy (h : Hub) (o : Nat) : Orderly h (h.destroy o) := by
  have hst : ∀ o', (h.destroy o).stateOf o' = (h.close o).stateOf o' := fun o' => by
    rw [destroy_stateOf, close_stateOf]
  refine (orderly_close h o).trans (orderly_owners (fun _ => rfl) rfl (fun r => by simp only [hst]) (fun hk => ?_)
    (fun hk o' ho' => ?_) Kempt.sockets)
  · simp only [hst]
    exact hk.unique
  · by_cases hne : o' = o
    · simp [destroy, setMultiplexer, hne]
    · simpa [destroy, setMultiplexer, hne] using hk.multiplexers o' ho'

/-- A copy is a new `udp_multiplexer` with a state of its own; the others are as they were. -/
theorem orderly_copyConstruct {h h' : Hub} {o : Nat} (hk : Kempt h) (hs : h.copyConstruct o = .ok h') :
    (Kempt h' ∧ Tends h h') ∧ (h'.multiplexers h.madeMultiplexers).isSome = true ∧
      ∀ j, j ≠ h.madeMultiplexers → h'.multiplexers j = h.multiplexers j := by
  unfold copyConstruct at hs
  split at hs
  · cases hs
  · cases hs
  · next ex m k hx =>
    simp only [Except.bind_ok_iff, Except.pure_ok_iff] at hs
    obtain ⟨-, -, rfl⟩ := hs
    have hcreated : m < h.created := (hk.opened m k ((hk.owned m k).2 ⟨o, by simp [stateOf, hx]⟩)).1
    have hmade : Orderly h { h with madeMultiplexers := h.madeMultiplexers + 1 } :=
      orderly_owners (fun _ => rfl) rfl (fun _ => Iff.rfl) Kempt.unique
        (fun hk j hj => hk.multiplexers j (Nat.le_of_succ_le hj)) Kempt.sockets
    refine ⟨hmade.trans (orderly_attach hcreated ?_ (Nat.lt_succ_self _)) hk, ?_, fun j hj => ?_⟩
    · simp [stateOf, hk.multiplexers _ le_rfl]
    · simp [attach, setMultiplexer]
    · simp [attach, setMultiplexer, setPort, hj]

theorem orderly_copyAssign {h h' : Hub} {o o' : Nat} (hk : Kempt h) (ho : h.Live o) (hfree : h.stateOf o = none)
    (hs : h.copyAssign o o' = .ok h') : Kempt h' ∧ Tends h h' := by
  simp only [copyAssign, Except.bind_ok_iff, Except.pure_ok_iff] at hs
  obtain ⟨g, hg, rfl⟩ := hs
  obtain ⟨⟨hkg, htg⟩, hcopy, hothers⟩ := orderly_copyConstruct hk hg
  have hne : o ≠ h.madeMultiplexers := (hk.made_of_live ho).ne
  have hog : g.Live o := by rw [Live, hothers o hne]; exact ho
  have hfreeg : g.stateOf o = none := by rw [stateOf, hothers o hne]; exact hfree
  obtain ⟨hk', ht'⟩ := (orderly_moveAssign hog hcopy (.inr hfreeg)).trans (orderly_destroy _ _) hkg
  exact ⟨hk', htg.trans ht'⟩

theorem orderly_bindMultiplexer {h h' : Hub} {o o' : Nat} (hk : Kempt h) (ho : h.Live o)
    (hs : h.bindMultiplexer o o' = .ok h') : Kempt h' ∧ Tends h h' := by
  unfold bindMultiplexer at hs
  split at hs
  · obtain ⟨hkc, htc⟩ := (orderly_close h o).trans (orderly_ec _ h.ec) hk
    have hlive : Hub.Live { h.close o with ec := h.ec } o := by
      change ((h.close o).multiplexers o).isSome = true
      unfold close
      split
      · simp [setMultiplexer]
      · exact ho
    have hfree : Hub.stateOf { h.close o with ec := h.ec } o = none := by
      change (h.close o).stateOf o = none
      rw [close_stateOf, if_pos rfl]
    obtain ⟨hk', ht'⟩ := orderly_copyAssign hkc hlive hfree hs
    exact ⟨hk', htc.trans ht'⟩
  · next hnone => exact orderly_copyAssign hk ho (by simpa using hnone) hs

/-- A multiplexer made by the service or found alive there, and nothing else. -/
theorem orderly_maybeCreate {h g : Hub} {s c : Nat} {ep : Endpoint} {reply : Bound} {found : Option Nat}
    (hs : h.maybeCreateUdpMultiplexer s c ep reply = some (g, found)) :
    Orderly h g ∧ (Kempt h → ∀ m ∈ found, m < g.created) ∧ g.multiplexers = h.multiplexers ∧
      g.madeMultiplexers = h.madeMultiplexers ∧ g.sockets = h.sockets := by
  unfold maybeCreateUdpMultiplexer at hs
  split at hs
  · next m _ =>
    cases hs
    refine ⟨orderly_ec h h.ec, fun hk m' hm' => ?_, rfl, rfl, rfl⟩
    split at hm' <;> cases hm'
    next ha => exact hk.alive m ha
  · cases reply with
    | thrown => cases hs
    | failed ec =>
      cases hs
      refine ⟨orderly_ec h ec, fun _ m hm => ?_, rfl, rfl, rfl⟩
      cases hm
    | «at» ep' =>
      cases hs
      have hcreate : Orderly { h with ec := .success } (Hub.create { h with ec := .success }
          { creator := some s, context := c, endpoint := ep', port := {} }) := orderly_create fun _ => rfl
      refine ⟨((orderly_ec h .success).trans hcreate).trans (orderly_sockets (fun _ => rfl) rfl rfl rfl Kempt.sockets),
        fun _ m hm => ?_, rfl, rfl, rfl⟩
      cases hm
      exact Nat.lt_succ_self _

theorem orderly_bindEndpoint {h h' : Hub} {o : Nat} {ep : Endpoint} {reply : Bound} (hk : Kempt h)
    (ho : h.Live o) (hs : h.bindEndpoint o ep reply = .ok h') : Kempt h' ∧ Tends h h' := by
  simp only [bindEndpoint, Except.bind_ok_iff, Except.require_ok_iff] at hs
  obtain ⟨-, hfree, hs⟩ := hs
  have hmade := hk.made_of_live ho
  split at hs
  · cases hs
    exact orderly_ec h h.ec hk
  · next c _ =>
    split at hs
    · cases hs
      exact orderly_ec h h.ec hk
    · next g found hfound =>
      obtain ⟨hg, hcreated, hx, hn, -⟩ := orderly_maybeCreate hfound
      have hfreeg : g.stateOf o = none := by
        rw [stateOf, hx]
        exact hfree
      split at hs
      · cases hs
        exact hg hk
      · split at hs <;> cases hs
        · exact hg.trans (orderly_attachNull hfreeg (by rw [hn]; exact hmade)) hk
        · next m => exact hg.trans (orderly_attach (hcreated hk m rfl) hfreeg (by rw [hn]; exact hmade)) hk

/-- A port is called with the endpoint objects as they are. -/
theorem follows_view (h : Hub) (m : Nat) :
    Port.Follows (h.port m) { h.port m with endpoints := h.endpoints } :=
  Port.follows_same rfl rfl rfl (List.Subset.refl _)

theorem orderly_onPort {h h' : Hub} {m : Nat} {f : Port → Except Fault Port}
    (hf : ∀ p, f { h.port m with endpoints := h.endpoints } = .ok p →
      Port.Follows { h.port m with endpoints := h.endpoints } p ∧
        ∀ k, Port.Keeps { h.port m with endpoints := h.endpoints } p k)
    (hs : h.onPort m f = .ok h') : Orderly h h' := by
  simp only [onPort, Except.bind_ok_iff, Except.pure_ok_iff] at hs
  obtain ⟨p, hp, rfl⟩ := hs
  obtain ⟨hfollows, hkeeps⟩ := hf p hp
  exact (orderly_port ((follows_view h m).trans hfollows) hkeeps).trans
    (orderly_sockets (fun _ => rfl) rfl rfl rfl Kempt.sockets)

/-- Nothing is assigned to a `udp_multiplexer` that has a state, no send is
started over another, and `close` is not called on a `socket` that the
library has already closed. -/
def Careful (h : Hub) : Event → Prop
  | .copyAssign o _ => h.stateOf o = none
  | .moveAssign o o' => o = o' ∨ h.stateOf o = none
  | .asyncSendTo o _ _ => ∀ r ∈ h.stateOf o, (h.stateAt r.1 r.2).txHandler = none
  | .socketClose v => ∀ x ∈ h.sockets v, x.impl = true ∨ x.multiplexer = none
  | _ => True

instance (h : Hub) : (ev : Event) → Decidable (h.Careful ev)
  | .copyAssign o _ => inferInstanceAs (Decidable (h.stateOf o = none))
  | .moveAssign o o' => inferInstanceAs (Decidable (o = o' ∨ h.stateOf o = none))
  | .asyncSendTo o _ _ => inferInstanceAs (Decidable (∀ r ∈ h.stateOf o, (h.stateAt r.1 r.2).txHandler = none))
  | .socketClose v => inferInstanceAs (Decidable (∀ x ∈ h.sockets v, x.impl = true ∨ x.multiplexer = none))
  | .construct _ | .copyConstruct _ | .moveConstruct _ | .bindEndpoint _ _ _ _ | .bindSocket _ _ _
  | .bindMultiplexer _ _ | .asyncReceiveFrom _ _ _ | .close _ _ | .destroy _ | .socket _ | .socketBind _ _ _ _
  | .socketBindMultiplexer _ _ _ | .socketMoveConstruct _ | .socketMoveAssign _ _ | .socketDestroy _
  | .libraryClose _ | .setEndpoint _ _ | .inPort _ _ | .report _ _ | .release _ => inferInstanceAs (Decidable True)

/-- The first of these alone: nothing is assigned to a `udp_multiplexer` that has a state. -/
def AssignsFree (h : Hub) : Event → Prop
  | .copyAssign o _ => h.stateOf o = none
  | .moveAssign o o' => o = o' ∨ h.stateOf o = none
  | _ => True

instance (h : Hub) : (ev : Event) → Decidable (h.AssignsFree ev)
  | .copyAssign o _ => inferInstanceAs (Decidable (h.stateOf o = none))
  | .moveAssign o o' => inferInstanceAs (Decidable (o = o' ∨ h.stateOf o = none))
  | .construct _ | .copyConstruct _ | .moveConstruct _ | .bindEndpoint _ _ _ _ | .bindSocket _ _ _
  | .bindMultiplexer _ _ | .asyncReceiveFrom _ _ _ | .asyncSendTo _ _ _ | .close _ _ | .destroy _ | .socket _
  | .socketBind _ _ _ _ | .socketBindMultiplexer _ _ _ | .socketMoveConstruct _ | .socketMoveAssign _ _
  | .socketClose _ | .socketDestroy _ | .libraryClose _ | .setEndpoint _ _ | .inPort _ _ | .report _ _
  | .release _ => inferInstanceAs (Decidable True)

/-- The `socket` objects come and go without touching a state. -/
theorem orderly_setSocket {h : Hub} {v : Nat} {x : Option Socket} (hv : h.LiveSocket v) :
    Orderly h (h.setSocket v x) := by
  refine orderly_sockets (fun _ => rfl) rfl rfl rfl fun hk v' hv' => ?_
  have hv' : h.madeSockets ≤ v' := hv'
  have hne : v' ≠ v := by
    rintro rfl
    simp [LiveSocket, hk.sockets v' hv'] at hv
  simpa [setSocket, hne] using hk.sockets v' hv'

theorem orderly_newSocket (h : Hub) (x : Option Socket) :
    Orderly h (Hub.setSocket { h with madeSockets := h.madeSockets + 1 } h.madeSockets x) := by
  refine orderly_sockets (fun _ => rfl) rfl rfl rfl fun hk v' hv' => ?_
  have hv' : h.madeSockets + 1 ≤ v' := hv'
  have hne : v' ≠ h.madeSockets := by omega
  simpa [setSocket, hne] using hk.sockets v' (by omega)

theorem liveSocket_setSocket {h : Hub} {v v' : Nat} {x : Socket} (hv : h.LiveSocket v') :
    (h.setSocket v (some x)).LiveSocket v' := by
  by_cases hne : v' = v
  · simp [LiveSocket, setSocket, hne]
  · simpa [LiveSocket, setSocket, hne] using hv

theorem orderly_socketClose (h : Hub) (v : Nat) : Orderly h (h.socketClose v) := by
  unfold socketClose
  split
  · exact orderly_ec h h.ec
  · next x hx =>
    split
    · exact orderly_setSocket (by simp [LiveSocket, hx])
    · exact orderly_ec h h.ec

theorem orderly_socketBind {h h' : Hub} {v : Nat} {ep : Endpoint} {reply : Bound}
    (hs : h.socketBind v ep reply = .ok h') : Orderly h h' := by
  unfold socketBind at hs
  split at hs
  · cases hs
  · next x hx =>
    split at hs
    · cases hs
      exact orderly_ec h _
    · split at hs
      · cases hs
        exact orderly_ec h h.ec
      · next g found hfound =>
        obtain ⟨hg, -, -, -, hsockets⟩ := orderly_maybeCreate hfound
        split at hs
        · cases hs
          exact hg
        · split at hs <;> cases hs
          exact hg.trans (orderly_setSocket (by simp [LiveSocket, hsockets, hx]))

theorem orderly_step {h h' : Hub} {ev : Event} (hk : Kempt h) (hen : h.Possible ev) (hc : h.Careful ev)
    (hs : h.step ev = .ok h') : Kempt h' ∧ Tends h h' := by
  cases ev with
  | construct ex =>
    cases hs
    exact orderly_construct h ex hk
  | copyConstruct o => exact (orderly_copyConstruct hk hs).1
  | moveConstruct o =>
    cases hs
    exact orderly_moveConstruct hen hk
  | copyAssign o o' => exact orderly_copyAssign hk hen.1 hc hs
  | moveAssign o o' =>
    cases hs
    exact orderly_moveAssign hen.1 hen.2 hc hk
  | bindEndpoint o ep ec reply =>
    obtain ⟨hke, hte⟩ := orderly_ec h ec hk
    obtain ⟨hk', ht'⟩ := orderly_bindEndpoint hke hen.1 hs
    exact ⟨hk', hte.trans ht'⟩
  | bindSocket o c ep =>
    simp only [step, bindSocket, Except.bind_ok_iff, Except.require_ok_iff, Except.pure_ok_iff] at hs
    obtain ⟨-, hfree, rfl⟩ := hs
    have hmade := hk.made_of_live hen
    have hcreate : Orderly h (h.create { context := c, endpoint := ep, port := {} }) := orderly_create fun _ => rfl
    exact hcreate.trans (orderly_attach (Nat.lt_succ_self _) hfree hmade) hk
  | bindMultiplexer o o' => exact orderly_bindMultiplexer hk hen.1 hs
  | asyncReceiveFrom o ep buffers =>
    simp only [step, asyncReceiveFrom] at hs
    split at hs
    · cases hs
      exact orderly_sockets (fun _ => rfl) rfl rfl rfl Kempt.sockets hk
    · simp only [Except.bind_ok_iff] at hs
      obtain ⟨-, -, hs⟩ := hs
      refine orderly_onPort (fun p hp => ?_) hs hk
      obtain ⟨hf, hkeeps, -⟩ := Port.asyncReceiveFrom_follows hp
      exact ⟨hf, hkeeps⟩
  | asyncSendTo o buffers dst =>
    simp only [step, asyncSendTo] at hs
    split at hs
    · cases hs
      exact orderly_sockets (fun _ => rfl) rfl rfl rfl Kempt.sockets hk
    · next m k ho =>
      simp only [Except.bind_ok_iff] at hs
      obtain ⟨-, -, hs⟩ := hs
      refine orderly_onPort (fun p hp => ?_) hs hk
      cases hp
      obtain ⟨hf, hkeeps, -⟩ := Port.asyncSendTo_follows { h.port m with endpoints := h.endpoints } k buffers dst
      exact ⟨hf, hkeeps (hc (m, k) ho)⟩
  | close o ec =>
    cases hs
    exact (orderly_ec h ec).trans (orderly_close _ o) hk
  | destroy o =>
    cases hs
    exact orderly_destroy h o hk
  | socket c =>
    cases hs
    exact orderly_newSocket h _ hk
  | socketBind v ep ec reply => exact (orderly_ec h ec).trans (orderly_socketBind hs) hk
  | socketBindMultiplexer v o ec =>
    simp only [step, socketBindMultiplexer] at hs
    split at hs
    · cases hs
    · split at hs
      · cases hs
        exact orderly_ec h _ hk
      · split at hs
        · cases hs
        · simp only [Except.bind_ok_iff, Except.pure_ok_iff] at hs
          obtain ⟨-, -, rfl⟩ := hs
          exact (orderly_ec h ec).trans (orderly_setSocket hen.1) hk
  | socketMoveConstruct v =>
    cases hs
    refine (orderly_newSocket h (h.sockets v)).trans (orderly_setSocket ?_) hk
    have hv : (h.sockets v).isSome = true := hen
    by_cases hne : v = h.madeSockets <;> simp [LiveSocket, setSocket, hne, hv]
    simpa [hne] using hv
  | socketMoveAssign v v' =>
    simp only [step, socketMoveAssign] at hs
    split at hs
    · next x y hx hy =>
      split at hs
      · cases hs
        exact orderly_socketClose h v hk
      · split at hs <;> cases hs
        have hv : (h.socketClose v).LiveSocket v := by simp [LiveSocket, hx]
        have hv' : (h.socketClose v).LiveSocket v' := by simp [LiveSocket, hy]
        exact ((orderly_socketClose h v).trans (orderly_setSocket hv)).trans
          (orderly_setSocket (liveSocket_setSocket hv')) hk
    · cases hs
  | socketClose v =>
    cases hs
    exact orderly_socketClose h v hk
  | socketDestroy v =>
    cases hs
    refine (orderly_socketClose h v).trans (orderly_setSocket ?_) hk
    have hv : h.LiveSocket v := hen
    unfold socketClose
    split
    · exact hv
    · split
      · exact liveSocket_setSocket hv
      · exact hv
  | libraryClose v =>
    cases hs
    obtain ⟨x, hx, -⟩ := hen
    exact orderly_setSocket (by rw [LiveSocket, hx]; rfl) hk
  | setEndpoint e ep =>
    cases hs
    exact orderly_sockets (fun _ => rfl) rfl rfl rfl Kempt.sockets hk
  | inPort m ev =>
    have hs : (h.onPort m fun p => p.step ev) = .ok h' := hs
    exact orderly_onPort (fun p hp => Port.step_follows hp hen.1) hs hk
  | report m ep =>
    cases hs
    refine orderly_sockets (fun m' => ?_) rfl rfl rfl Kempt.sockets hk
    by_cases hm : m' = m <;> simp [port, hm]
  | release m =>
    cases hs
    exact orderly_release h m hk

/-- Who owns which state does not depend on how sends and `close` are used. -/
theorem kempt_step {h h' : Hub} {ev : Event} (hk : Kempt h) (hen : h.Possible ev) (hfree : h.AssignsFree ev)
    (hs : h.step ev = .ok h') : Kempt h' := by
  cases ev with
  | asyncSendTo o buffers dst =>
    simp only [step, asyncSendTo] at hs
    split at hs
    · cases hs
      exact ⟨hk.closed, hk.owned, hk.unique, hk.opened, hk.alive, hk.multiplexers, hk.sockets⟩
    · next m k ho =>
      simp only [onPort, Except.bind_ok_iff, Except.pure_ok_iff] at hs
      obtain ⟨-, -, p, hp, rfl⟩ := hs
      cases hp
      have hkp := kempt_port hk ((follows_view h m).trans (Port.asyncSendTo_follows _ k buffers dst).1)
      exact ⟨hkp.closed, hkp.owned, hkp.unique, hkp.opened, hkp.alive, hkp.multiplexers, hkp.sockets⟩
  | socketClose v =>
    cases hs
    exact (orderly_socketClose h v hk).1
  | _ => exact (orderly_step hk hen hfree hs).1

/-! ## Runs -/

/-- The steps the results are about. -/
def Tidy (h : Hub) (ev : Event) : Prop := h.Enabled ev ∧ h.Careful ev

instance (h : Hub) (ev : Event) : Decidable (h.Tidy ev) := inferInstanceAs (Decidable (_ ∧ _))

theorem orderly_run {h h' : Hub} {es : List Event} (hrun : Run Tidy step h es h') : Orderly h h' := by
  intro hk
  refine hrun.invariant (fun g => Kempt g ∧ Tends h g) (fun g ev g' hg hok hs => ?_)
    ⟨hk, tends_of_ports le_rfl fun _ _ => rfl⟩
  obtain ⟨hk', ht'⟩ := orderly_step hg.1 hok.1.1 hok.2 hs
  exact ⟨hk', hg.2.trans ht'⟩

theorem reachable_kempt {h : Hub} (hrun : Reachable Tidy step {} h) : Kempt h := by
  obtain ⟨es, hrun⟩ := hrun
  exact (orderly_run hrun kempt_init).1

/-- The event starts call number `call` on state `k` of multiplexer `m`. -/
def Starts (h : Hub) : Event → Nat → Nat → Nat → Prop
  | .asyncReceiveFrom o _ _, m, k, call | .asyncSendTo o _ _, m, k, call =>
    h.stateOf o = some (m, k) ∧ call = (h.port m).calls
  | _, _, _, _ => False

theorem onPort_port {h h' : Hub} {m : Nat} {f : Port → Except Fault Port} (hs : h.onPort m f = .ok h') :
    f { h.port m with endpoints := h.endpoints } = .ok (h'.port m) ∧ h'.created = h.created := by
  simp only [onPort, Except.bind_ok_iff, Except.pure_ok_iff] at hs
  obtain ⟨p, hp, rfl⟩ := hs
  have hport : (h.setPort m p).port m = p := by rw [port_setPort, if_pos rfl]
  refine ⟨?_, rfl⟩
  rw [hp]
  exact congrArg _ hport.symm

theorem started_pending {h h' : Hub} {ev : Event} {m k call : Nat} (hk : Kempt h) (hst : h.Starts ev m k call)
    (hs : h.step ev = .ok h') : m < h'.created ∧ call ∈ (h'.stateAt m k).pending := by
  cases ev with
  | asyncReceiveFrom o ep buffers =>
    obtain ⟨ho, rfl⟩ := hst
    have hown : (h.stateAt m k).owned = true := (hk.owned m k).2 ⟨o, ho⟩
    simp only [step, asyncReceiveFrom, ho, Except.bind_ok_iff] at hs
    obtain ⟨-, -, hs⟩ := hs
    obtain ⟨hp, hcreated⟩ := onPort_port hs
    exact ⟨hcreated ▸ (hk.opened m k hown).1, (Port.asyncReceiveFrom_follows hp).2.2 hown⟩
  | asyncSendTo o buffers dst =>
    obtain ⟨ho, rfl⟩ := hst
    have hown : (h.stateAt m k).owned = true := (hk.owned m k).2 ⟨o, ho⟩
    simp only [step, asyncSendTo, ho, Except.bind_ok_iff] at hs
    obtain ⟨-, -, hs⟩ := hs
    obtain ⟨hp, hcreated⟩ := onPort_port hs
    refine ⟨hcreated ▸ (hk.opened m k hown).1, ?_⟩
    rw [stateAt, ← Except.ok.inj hp]
    exact (Port.asyncSendTo_follows _ k buffers dst).2.2 hown
  | _ => exact hst.elim

/-- Started on a state, a call has been posted once nobody owns the state. -/
theorem started_posted {h h' : Hub} {ev : Event} {es : List Event} {m k call : Nat} (hk : Kempt h)
    (hst : h.Starts ev m k call) (hrun : Run Tidy step h (ev :: es) h')
    (hfree : ∀ o, h'.stateOf o ≠ some (m, k)) : (h'.port m).HasPosted call := by
  cases hrun with
  | cons hok hs hrun =>
    obtain ⟨hm, hpending⟩ := started_pending hk hst hs
    obtain ⟨hk', ht'⟩ := orderly_run hrun (orderly_step hk hok.1.1 hok.2 hs).1
    rcases ht'.keeps m hm k call hpending with hc | hc
    · have hnil : ((h'.port m).states k).pending = [] := (hk'.closed_of_free hfree).pending
      rw [hnil] at hc
      cases hc
    · exact hc

/-- As long as a multiplexer is there and no destructor is due, something refers to it. -/
theorem Kempt.referenced {h : Hub} (hk : Kempt h) {m : Nat} (ha : (h.port m).alive = true) (hsettled : h.Settled)
    (hflush : (h.port m).multiplexer.flushing = none) (hcomp : (h.port m).completing = []) :
    (∃ o k, h.stateOf o = some (m, k)) ∨ ∃ v, h.multiplexerOf v = some m := by
  by_contra hnone
  simp only [not_or, not_exists] at hnone
  refine hsettled m (hk.alive m ha) ⟨⟨ha, hflush, hcomp, fun k _ => ?_⟩, fun v _ => hnone.2 v⟩
  exact (hk.closed_of_free fun o => hnone.1 o k).impl

theorem multiplexerOf_setSocket (h : Hub) (v v' : Nat) (x : Option Socket) :
    (h.setSocket v x).multiplexerOf v' = if v' = v then x.bind Socket.multiplexer else h.multiplexerOf v' := by
  by_cases hv : v' = v <;> simp [setSocket, multiplexerOf, hv]

theorem socketClose_multiplexerOf {h : Hub} {v : Nat}
    (hc : ∀ x ∈ h.sockets v, x.impl = true ∨ x.multiplexer = none) : (h.socketClose v).multiplexerOf v = none := by
  unfold socketClose
  split
  · next hx => simp [multiplexerOf, hx]
  · next x hx =>
    split
    · rw [multiplexerOf_setSocket, if_pos rfl]
      rfl
    · next himpl =>
      have hnone : x.multiplexer = none := (hc x hx).resolve_left himpl
      simp [multiplexerOf, hx, hnone]

theorem socketClose_others (h : Hub) {v v' : Nat} (hne : v' ≠ v) : (h.socketClose v).sockets v' = h.sockets v' := by
  unfold socketClose
  split
  · rfl
  · split
    · simp [setSocket, hne]
    · rfl

theorem socketMoveAssign_multiplexerOf {h h' : Hub} {v v' : Nat} (hne : v ≠ v')
    (hs : h.socketMoveAssign v v' = .ok h') :
    h'.multiplexerOf v = h.multiplexerOf v' ∧ h'.multiplexerOf v' = none := by
  simp only [socketMoveAssign] at hs
  split at hs
  · next x y _ hy =>
    rw [if_neg hne] at hs
    split at hs <;> cases hs
    rw [socketClose_others h hne.symm] at hy
    simp only [multiplexerOf_setSocket, if_pos, if_neg hne, Option.bind_some]
    exact ⟨by simp [multiplexerOf, hy], trivial⟩
  · cases hs

/-- **No orphaned states.** A state that no `udp_multiplexer` owns has been
closed, and every call made on it has had its handler posted. So a multiplexer
that is there, once the destructors that are due have run and no completion
of its receives and sends is being handled, has a `udp_multiplexer` or a `socket` that
refers to it; and an object refers to nothing once it is closed or destroyed,
or only to what is assigned to it. -/
theorem no_orphans {h : Hub} (hrun : Reachable Tidy step {} h) :
    (∀ m k, (∀ o, h.stateOf o ≠ some (m, k)) → (h.stateAt m k).Closed) ∧
    (∀ ev m k call, h.Starts ev m k call → ∀ es h', Run Tidy step h (ev :: es) h' →
      (∀ o, h'.stateOf o ≠ some (m, k)) → (h'.port m).HasPosted call) ∧
    (∀ m, (h.port m).alive = true → h.Settled → (h.port m).multiplexer.flushing = none →
      (h.port m).completing = [] → (∃ o k, h.stateOf o = some (m, k)) ∨ ∃ v, h.multiplexerOf v = some m) ∧
    (∀ o h', (∃ ec, h.step (.close o ec) = .ok h') ∨ h.step (.destroy o) = .ok h' → h'.stateOf o = none) ∧
    (∀ v h', h.Careful (.socketClose v) → h.step (.socketClose v) = .ok h' → h'.multiplexerOf v = none) ∧
    (∀ v h', h.step (.socketDestroy v) = .ok h' → h'.multiplexerOf v = none) ∧
    ∀ v v' h', v ≠ v' → h.step (.socketMoveAssign v v') = .ok h' →
      h'.multiplexerOf v = h.multiplexerOf v' ∧ h'.multiplexerOf v' = none := by
  have hk := reachable_kempt hrun
  refine ⟨fun m k => hk.closed_of_free, fun ev m k call hst es h' => started_posted hk hst,
    fun m => hk.referenced, fun o h' hs => ?_, fun v h' hc hs => ?_, fun v h' hs => ?_, fun v v' h' hne hs => ?_⟩
  · rcases hs with ⟨ec, hs⟩ | hs <;> cases hs
    · rw [close_stateOf, if_pos rfl]
    · rw [destroy_stateOf, if_pos rfl]
  · cases hs
    exact socketClose_multiplexerOf hc
  · cases hs
    rw [socketDestroy, multiplexerOf_setSocket, if_pos rfl]
    rfl
  · exact socketMoveAssign_multiplexerOf hne hs

/-- A receive is started and the `udp_multiplexer` moved, closed and released. -/
theorem no_orphans_moved : ∃ h h' : Hub, Reachable Tidy step {} h ∧
    Run Tidy step h [.asyncReceiveFrom 0 0 [[0]], .moveConstruct 0, .close 1 .success, .release 0] h' ∧
    (h'.port 0).HasPosted 0 ∧ (h'.stateAt 0 0).Closed := by
  obtain ⟨h, hrun, h', hrun', hstart, hfree⟩ := exists_run Tidy step {}
    [.construct (some 0), .bindEndpoint 0 ⟨.loopbackV4, 4000⟩ .success (.at ⟨.loopbackV4, 4000⟩),
      .setEndpoint 0 (some ⟨.loopbackV4, 5000⟩)]
    (fun h => ∃ h', Run Tidy step h [.asyncReceiveFrom 0 0 [[0]], .moveConstruct 0, .close 1 .success, .release 0] h' ∧
      h.Starts (.asyncReceiveFrom 0 0 [[0]]) 0 0 0 ∧ ∀ o, h'.stateOf o ≠ some (0, 0))
    ⟨_, rfl, _, run_of_exec rfl, ⟨by decide, by decide⟩, fun
      | 0 => by decide
      | 1 => by decide
      | o + 2 => nofun⟩
  have hr : Reachable Tidy step {} h := ⟨_, hrun⟩
  have hr' : Reachable Tidy step {} h' := ⟨_, hrun.append hrun'⟩
  exact ⟨h, h', hr, hrun', (no_orphans hr).2.1 _ 0 0 0 hstart _ h' hrun' hfree, (no_orphans hr').1 0 0 hfree⟩

/-- **Orphaned.** A `udp_multiplexer` with a receive pending is assigned over,
and then every `udp_multiplexer` is destroyed: the state still has its
handler, its `impl` and the call, which nothing will ever complete, and the
port stays. A send started over another loses the first one's handler, and a
`socket` that the library has closed keeps the multiplexer when it is closed. -/
theorem orphaned_state :
    (∃ h, Run Enabled step {} [.construct (some 0),
        .bindEndpoint 0 ⟨.loopbackV4, 4000⟩ .success (.at ⟨.loopbackV4, 4000⟩),
        .setEndpoint 0 (some ⟨.loopbackV4, 5000⟩), .asyncReceiveFrom 0 0 [[0]], .construct (some 0),
        .moveAssign 0 1, .destroy 0, .destroy 1] h ∧
      (∀ o, h.multiplexers o = none) ∧ (∀ v, h.sockets v = none) ∧ (h.stateAt 0 0).impl = true ∧
      (h.stateAt 0 0).handler = true ∧ (h.stateAt 0 0).rxHandler = some 0 ∧ (h.port 0).posted = [] ∧
      (h.port 0).alive = true ∧ h.Settled ∧ (h.port 0).multiplexer.flushing = none ∧ (h.port 0).completing = []) ∧
    (∃ h, Run Enabled step {} [.construct (some 0),
        .bindEndpoint 0 ⟨.loopbackV4, 4000⟩ .success (.at ⟨.loopbackV4, 4000⟩),
        .setEndpoint 0 (some ⟨.loopbackV4, 5000⟩), .asyncSendTo 0 [[1]] 0, .asyncSendTo 0 [[2]] 0, .destroy 0] h ∧
      (h.port 0).calls = 2 ∧ (h.port 0).posted = [⟨1, .operationAborted, 0⟩]) ∧
    ∃ h, Run Enabled step {} [.socket 0, .socketBind 0 ⟨.loopbackV4, 4000⟩ .success (.at ⟨.loopbackV4, 4000⟩),
        .libraryClose 0, .socketClose 0] h ∧
      h.multiplexerOf 0 = some 0 ∧ (h.port 0).alive = true ∧ h.Settled :=
  ⟨⟨_, run_of_exec (by rfl), (fun | 0 => rfl | 1 => rfl | o + 2 => rfl), fun _ => rfl, by decide, by decide, by decide,
      by decide, by decide, by decide, by decide, by decide⟩,
    ⟨_, run_of_exec (by rfl), by decide, by decide⟩,
    ⟨_, run_of_exec (by rfl), by decide, by decide, by decide⟩⟩

end AsioUtp.Hub
