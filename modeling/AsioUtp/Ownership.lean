/-
Who owns whom in a process of several contexts.

In each context `socket`s and `socket_impl`s are paired (`World.Paired`), and
of the contexts of a process a `socket` holds the multiplexer of one at most
(`Kept`). `Process.ownership` is what follows for every run in which move
assignment takes from no `socket` that has a `_socket_impl`.
-/
import AsioUtp.Owners
import AsioUtp.Process

namespace AsioUtp.Process

open Machine
open World (Paired)

/-! ## Moving what a `socket` holds -/

theorem moveConstruct_holders {w : World} {v x : Nat}
    (h : ((w.moveConstruct v).sockets x).multiplexer = true) :
    (w.sockets (if x = w.made then v else x)).multiplexer = true := by
  rw [(World.moveConstruct_eq w v).1] at h
  by_cases hx : x = w.made
  · rw [hx, Function.update_self] at h
    rwa [if_pos hx]
  · rw [Function.update_of_ne hx] at h
    rw [if_neg hx]
    by_cases hxv : x = v
    · rw [hxv, Function.update_self] at h
      cases h
    · rwa [Function.update_of_ne hxv] at h

theorem bind_holders {w : World} {v x : Nat} (h : ((w.bind v).sockets x).multiplexer = true) :
    x = v ∨ (w.sockets x).multiplexer = true := by
  unfold World.bind at h
  split at h
  · exact .inr h
  · by_cases hxv : x = v
    · exact .inl hxv
    · simp only [World.setImpl, World.setSocket, Function.update_of_ne hxv] at h
      exact .inr h

theorem setSocket_holders {w : World} {v x : Nat} (h : ((w.setSocket v {}).sockets x).multiplexer = true) :
    x ≠ v ∧ (w.sockets x).multiplexer = true := by
  by_cases hxv : x = v
  · rw [hxv, World.setSocket_sockets, Function.update_self] at h
    cases h
  · rw [World.setSocket_sockets, Function.update_of_ne hxv] at h
    exact ⟨hxv, h⟩

/-- Move assignment, given that it returns: the target is closed first. -/
theorem moveAssign_eq {w w' : World} {v v' : Nat} (h : w.moveAssign v v' = .ok w') :
    ∃ w₁, w.close v = .ok w₁ ∧ w' = (w₁.setSocket v' {}).setSocket v (w₁.sockets v') := by
  obtain ⟨w₁, hclose, h⟩ := Except.bind_ok_iff.1 h
  dsimp only at h
  split at h
  · cases h
  · cases h
    exact ⟨w₁, hclose, rfl⟩

theorem moveAssign_holders {w w' : World} {v v' x : Nat} (hw : w.Sound) (h : w.moveAssign v v' = .ok w')
    (hx : (w'.sockets x).multiplexer = true) : (w.sockets (if x = v then v' else x)).multiplexer = true := by
  obtain ⟨w₁, hclose, rfl⟩ := moveAssign_eq h
  obtain ⟨-, hself, hothers⟩ := World.close_holders hw hclose
  -- Closing the target gives nobody the multiplexer.
  have hbefore : ∀ y, (w₁.sockets y).multiplexer = true → (w.sockets y).multiplexer = true := fun y hy => by
    by_cases hyv : y = v
    · subst hyv
      rcases hself with heq | heq
      · rw [heq] at hy
        cases hy
      · rwa [heq] at hy
    · rwa [(hothers y hyv).1] at hy
  simp only [World.setSocket_sockets] at hx
  by_cases hxv : x = v
  · rw [hxv, Function.update_self] at hx
    rw [if_pos hxv]
    exact hbefore v' hx
  · rw [Function.update_of_ne hxv] at hx
    rw [if_neg hxv]
    by_cases hxv' : x = v'
    · rw [hxv', Function.update_self] at hx
      cases hx
    · rw [Function.update_of_ne hxv'] at hx
      exact hbefore x hx

/-- What the source held is the target's, and the source holds nothing. -/
theorem moveAssign_moves {w w' : World} {v v' : Nat} (hw : w.Sound) (hne : v ≠ v') (hnone : (w.sockets v').impl = none)
    (h : w.moveAssign v v' = .ok w') : w'.sockets v = w.sockets v' ∧ w'.sockets v' = {} := by
  obtain ⟨w₁, hclose, rfl⟩ := moveAssign_eq h
  obtain ⟨hflag, himpl⟩ := (World.close_holders hw hclose).2.2 v' (Ne.symm hne)
  have himpl : (w₁.sockets v').impl = none := by
    cases hi : (w₁.sockets v').impl with
    | none => rfl
    | some i =>
      rw [himpl i hi] at hnone
      cases hnone
  refine ⟨?_, by simp [Ne.symm hne]⟩
  rw [World.setSocket_sockets, Function.update_self]
  cases hs : w.sockets v'
  cases hs₁ : w₁.sockets v'
  simp_all

/-! ## The pointers of a process -/

structure Kept (p : Process) : Prop where
  paired : ∀ w ∈ p.contexts, Paired w
  made : ∀ w ∈ p.contexts, ∀ w' ∈ p.contexts, w.made = w'.made
  apart : ∀ (c d : Nat) (w w' : World) (v : Nat), p.contexts[c]? = some w → p.contexts[d]? = some w' →
    (w.sockets v).multiplexer = true →
    (w'.sockets v).multiplexer = true → c = d
  destroyed : ∀ v ∈ p.destroyed, ∀ w ∈ p.contexts, v < w.made ∧ (w.sockets v).multiplexer = false

theorem kept_start (n : Nat) : Kept (start n) := by
  have hfresh : ∀ w ∈ (start n).contexts, w = {} := fun w hw => (List.mem_replicate.1 hw).2
  refine ⟨fun w hw => ?_, fun w hw w' hw' => by rw [hfresh w hw, hfresh w' hw'], fun c d w w' v hw _ h _ => ?_,
    fun v hv => by cases hv⟩
  · rw [hfresh w hw]
    exact World.paired_init
  · rw [hfresh w (List.mem_of_getElem? hw)] at h
    cases h

/-- What happens in each context. -/
def Each (R : World → World → Prop) (p p' : Process) : Prop :=
  ∀ (c : Nat) (w' : World), p'.contexts[c]? = some w' → ∃ w, p.contexts[c]? = some w ∧ R w w'

theorem Each.mem {R : World → World → Prop} {p p' : Process} (h : Each R p p') {w' : World} (hw : w' ∈ p'.contexts) :
    ∃ w ∈ p.contexts, R w w' := by
  obtain ⟨c, hc⟩ := List.getElem?_of_mem hw
  obtain ⟨w, hw, hR⟩ := h c w' hc
  exact ⟨w, List.mem_of_getElem? hw, hR⟩

theorem everywhere_each {p p' : Process} {f : World → Except Fault World} (h : p.everywhere f = .ok p') :
    Each (fun w w' => f w = .ok w') p p' ∧ p'.destroyed = p.destroyed := by
  obtain ⟨l, hl, h⟩ := Except.bind_ok_iff.1 h
  cases h
  refine ⟨fun c w' hw' => ?_, rfl⟩
  have hall := Except.mapM_ok_iff.1 hl
  obtain ⟨hlen, hget⟩ := List.forall₂_iff_get.1 hall
  obtain ⟨hlt, heq⟩ := List.getElem?_eq_some_iff.1 hw'
  have hlt : c < l.length := hlt
  refine ⟨p.contexts.get ⟨c, by omega⟩, by simp, ?_⟩
  rw [← heq]
  exact hget c (by omega) hlt

/-- No context is lost. -/
theorem everywhere_some {p p' : Process} {f : World → Except Fault World} (h : p.everywhere f = .ok p') {c : Nat}
    {w : World} (hw : p.contexts[c]? = some w) : ∃ w', p'.contexts[c]? = some w' ∧ f w = .ok w' := by
  have heach := (everywhere_each h).1
  obtain ⟨l, hl, h⟩ := Except.bind_ok_iff.1 h
  cases h
  have hlen := (Except.mapM_ok_iff.1 hl).length_eq
  obtain ⟨hlt, -⟩ := List.getElem?_eq_some_iff.1 hw
  have hw' : l[c]? = some (l.get ⟨c, by omega⟩) := by simp
  obtain ⟨w₁, hw₁, hf⟩ := heach c _ hw'
  obtain rfl : w = w₁ := Option.some.inj (hw.symm.trans hw₁)
  exact ⟨_, hw', hf⟩

theorem everywhere_error {p : Process} {f : World → Except Fault World} {e : Fault} (h : p.everywhere f = .error e) :
    ∃ w ∈ p.contexts, f w = .error e := by
  rcases Except.bind_error_iff.1 h with h | ⟨l, -, h⟩
  · exact Except.mapM_error h
  · cases h

/-- In each context the `socket`s hold what the same others held: `v` what `source v` did. -/
theorem Kept.of_each {p p' : Process} (h : Kept p) {R : World → World → Prop} {n : Nat} (source : Nat → Nat)
    (heach : Each R p p') (hpaired : ∀ w ∈ p.contexts, ∀ w', R w w' → Paired w')
    (hmade : ∀ w ∈ p.contexts, ∀ w', R w w' → w'.made = w.made + n)
    (hholds : ∀ w ∈ p.contexts, ∀ w', R w w' → ∀ v, (w'.sockets v).multiplexer = true →
      (w.sockets (source v)).multiplexer = true)
    (hdestroyed : p'.destroyed = p.destroyed) (hfix : ∀ v ∈ p.destroyed, source v = v) : Kept p' where
  paired w' hw' := by
    obtain ⟨w, hw, hR⟩ := heach.mem hw'
    exact hpaired w hw w' hR
  made w₁ h₁ w₂ h₂ := by
    obtain ⟨v₁, hv₁, hR₁⟩ := heach.mem h₁
    obtain ⟨v₂, hv₂, hR₂⟩ := heach.mem h₂
    rw [hmade v₁ hv₁ w₁ hR₁, hmade v₂ hv₂ w₂ hR₂, h.made v₁ hv₁ v₂ hv₂]
  apart c d w₁ w₂ v h₁ h₂ hc hd := by
    obtain ⟨v₁, hv₁, hR₁⟩ := heach c w₁ h₁
    obtain ⟨v₂, hv₂, hR₂⟩ := heach d w₂ h₂
    exact h.apart c d v₁ v₂ (source v) hv₁ hv₂ (hholds v₁ (List.mem_of_getElem? hv₁) w₁ hR₁ v hc)
      (hholds v₂ (List.mem_of_getElem? hv₂) w₂ hR₂ v hd)
  destroyed v hv w' hw' := by
    rw [hdestroyed] at hv
    obtain ⟨w, hw, hR⟩ := heach.mem hw'
    obtain ⟨hlt, hnone⟩ := h.destroyed v hv w hw
    refine ⟨by rw [hmade w hw w' hR]; omega, ?_⟩
    cases hm : (w'.sockets v).multiplexer with
    | false => rfl
    | true =>
      have hsource := hholds w hw w' hR v hm
      rw [hfix v hv, hnone] at hsource
      cases hsource

/-! ## Every event -/

/-- A call in every context. -/
theorem Kept.of_everywhere {p p' : Process} {ev : World.Event} {n : Nat} (h : Kept p) (source : Nat → Nat)
    (hen : ∀ w ∈ p.contexts, w.Enabled ev) (hs : p.everywhere (fun w => w.step ev) = .ok p')
    (hmade : ∀ w ∈ p.contexts, ∀ w', w.step ev = .ok w' → w'.made = w.made + n)
    (hholds : ∀ w ∈ p.contexts, ∀ w', w.step ev = .ok w' → ∀ v, (w'.sockets v).multiplexer = true →
      (w.sockets (source v)).multiplexer = true)
    (hfix : ∀ v ∈ p.destroyed, source v = v) : Kept p' := by
  obtain ⟨heach, hdestroyed⟩ := everywhere_each hs
  exact h.of_each source heach (fun w hw w' hR => World.paired_step (h.paired w hw) (hen w hw) hR) hmade hholds
    hdestroyed hfix

theorem close_kept {w w' : World} {v : Nat} (hw : w.Sound) (h : w.close v = .ok w') :
    w'.made = w.made ∧ ∀ x, (w'.sockets x).multiplexer = true → (w.sockets x).multiplexer = true := by
  obtain ⟨⟨hmade, -⟩, hself, hothers⟩ := World.close_holders hw h
  refine ⟨hmade, fun x hx => ?_⟩
  by_cases hxv : x = v
  · subst hxv
    rcases hself with heq | heq
    · rw [heq] at hx
      cases hx
    · rwa [heq] at hx
  · rwa [(hothers x hxv).1] at hx

theorem kept_destroy {p p' : Process} {v : Nat} (h : Kept p) (hv : p.Live v) (hs : p.destroy v = .ok p') : Kept p' := by
  obtain ⟨p₁, heach, hs⟩ := Except.bind_ok_iff.1 hs
  cases hs
  obtain ⟨heach, hdestroyed⟩ := everywhere_each heach
  have hclose : ∀ w w' : World, (do return (← w.close v).setSocket v {} : Except Fault World) = .ok w' →
      ∃ w₁, w.close v = .ok w₁ ∧ w' = w₁.setSocket v {} := fun w w' h => by
    obtain ⟨w₁, hc, h⟩ := Except.bind_ok_iff.1 h
    cases h
    exact ⟨w₁, hc, rfl⟩
  have hkept : Kept p₁ := by
    refine h.of_each (n := 0) id heach (fun w hw w' hR => ?_) (fun w hw w' hR => ?_) (fun w hw w' hR x hx => ?_)
      hdestroyed fun _ _ => rfl
    · obtain ⟨w₁, hc, rfl⟩ := hclose w w' hR
      have hpaired := World.paired_step (h.paired w hw) (show w.Enabled (.close v) from hv.2 w hw) hc
      refine World.paired_move hpaired ⟨.release v, trivial, .release fun i hi => ?_⟩
      rw [World.close_impl hc] at hi
      cases hi
    · obtain ⟨w₁, hc, rfl⟩ := hclose w w' hR
      exact (close_kept (h.paired w hw).1 hc).1
    · obtain ⟨w₁, hc, rfl⟩ := hclose w w' hR
      exact (close_kept (h.paired w hw).1 hc).2 x (setSocket_holders hx).2
  refine ⟨hkept.paired, hkept.made, hkept.apart, fun x hx w' hw' => ?_⟩
  rcases List.mem_cons.1 hx with rfl | hx
  · obtain ⟨w, hw, hR⟩ := heach.mem hw'
    obtain ⟨w₁, hc, rfl⟩ := hclose w w' hR
    have hlt := hv.2 w hw
    exact ⟨(close_kept (h.paired w hw).1 hc).1 ▸ hlt, by simp⟩
  · exact hkept.destroyed x hx w' hw'

theorem impl_of_not_bound {p : Process} {v : Nat} (h : p.bound v = false) :
    ∀ w ∈ p.contexts, (w.sockets v).impl = none := by
  intro w hw
  have hw := List.any_eq_false.1 h w hw
  simpa using hw

/-- The context that binds, and any other. -/
theorem bind_contexts {p : Process} {c v d : Nat} {w' : World} (hb : p.bound v = false)
    (hw' : (p.bind c v).contexts[d]? = some w') :
    ∃ w, p.contexts[d]? = some w ∧ (d = c ∧ w' = w.bind v ∨ d ≠ c ∧ w' = w.setSocket v {}) := by
  rw [bind, if_neg (by simp [hb]), List.getElem?_mapIdx, Option.map_eq_some_iff] at hw'
  obtain ⟨w, hw, rfl⟩ := hw'
  refine ⟨w, hw, ?_⟩
  by_cases hdc : d = c
  · exact .inl ⟨hdc, if_pos hdc⟩
  · exact .inr ⟨hdc, if_neg hdc⟩

theorem bind_made (w : World) (v : Nat) : (w.bind v).made = w.made := by
  unfold World.bind
  split <;> rfl

/-- Binding gives the multiplexer of one context to one `socket`. -/
theorem bind_gives {p : Process} {c v d : Nat} {w' : World} (hb : p.bound v = false)
    (hw' : (p.bind c v).contexts[d]? = some w') :
    ∃ w, p.contexts[d]? = some w ∧ w'.made = w.made ∧ ∀ x, (w'.sockets x).multiplexer = true →
      x = v ∧ d = c ∨ x ≠ v ∧ (w.sockets x).multiplexer = true := by
  obtain ⟨w, hw, ⟨hdc, rfl⟩ | ⟨-, rfl⟩⟩ := bind_contexts hb hw'
  · refine ⟨w, hw, bind_made w v, fun x hx => ?_⟩
    by_cases hxv : x = v
    · exact .inl ⟨hxv, hdc⟩
    · exact .inr ⟨hxv, (bind_holders hx).resolve_left hxv⟩
  · exact ⟨w, hw, rfl, fun x hx => .inr (setSocket_holders hx)⟩

theorem paired_bind {p : Process} {c v : Nat} (h : Kept p) (hv : p.Live v) (hb : p.bound v = false)
    (halive : ∃ w ∈ p.contexts[c]?, w.ctx.alive = true) : ∀ w' ∈ (p.bind c v).contexts, Paired w' := by
  intro w' hw'
  obtain ⟨d, hd⟩ := List.getElem?_of_mem hw'
  obtain ⟨w, hw, hcase⟩ := bind_contexts hb hd
  have hmem := List.mem_of_getElem? hw
  rcases hcase with ⟨rfl, rfl⟩ | ⟨-, rfl⟩
  · obtain ⟨w₁, hw₁, ha⟩ := halive
    obtain rfl : w = w₁ := Option.some.inj (hw.symm.trans hw₁)
    exact World.paired_step (h.paired w hmem) (show w.Enabled (.bind v) from ⟨hv.2 w hmem, ha⟩) rfl
  · refine World.paired_move (h.paired w hmem) ⟨.release v, trivial, .release fun i hi => ?_⟩
    rw [impl_of_not_bound hb w hmem] at hi
    cases hi

theorem kept_bind {p : Process} {c v : Nat} (h : Kept p) (hv : p.Live v)
    (halive : ∃ w ∈ p.contexts[c]?, w.ctx.alive = true) : Kept (p.bind c v) := by
  cases hb : p.bound v with
  | true =>
    rw [bind, if_pos hb]
    exact h
  | false =>
    have hdestroyed : (p.bind c v).destroyed = p.destroyed := by rw [bind, if_neg (by simp [hb])]
    refine ⟨paired_bind h hv hb halive, fun w₁ h₁ w₂ h₂ => ?_, fun d₁ d₂ w₁ w₂ x h₁ h₂ hx₁ hx₂ => ?_,
      fun x hx w' hw' => ?_⟩
    · obtain ⟨d₁, hd₁⟩ := List.getElem?_of_mem h₁
      obtain ⟨d₂, hd₂⟩ := List.getElem?_of_mem h₂
      obtain ⟨v₁, hv₁, hm₁, -⟩ := bind_gives hb hd₁
      obtain ⟨v₂, hv₂, hm₂, -⟩ := bind_gives hb hd₂
      rw [hm₁, hm₂]
      exact h.made v₁ (List.mem_of_getElem? hv₁) v₂ (List.mem_of_getElem? hv₂)
    · obtain ⟨v₁, hv₁, -, hf₁⟩ := bind_gives hb h₁
      obtain ⟨v₂, hv₂, -, hf₂⟩ := bind_gives hb h₂
      rcases hf₁ x hx₁ with ⟨hxv, rfl⟩ | ⟨hxv, hx₁⟩ <;> rcases hf₂ x hx₂ with ⟨hxv', rfl⟩ | ⟨hxv', hx₂⟩
      · rfl
      · exact absurd hxv hxv'
      · exact absurd hxv' hxv
      · exact h.apart d₁ d₂ v₁ v₂ x hv₁ hv₂ hx₁ hx₂
    · rw [hdestroyed] at hx
      obtain ⟨d, hd⟩ := List.getElem?_of_mem hw'
      obtain ⟨w, hw, hm, hf⟩ := bind_gives hb hd
      obtain ⟨hlt, hno⟩ := h.destroyed x hx w (List.mem_of_getElem? hw)
      refine ⟨hm ▸ hlt, Bool.eq_false_iff.2 fun hflag => ?_⟩
      rcases hf x hflag with ⟨rfl, -⟩ | ⟨-, hflag⟩
      · exact hv.1 hx
      · rw [hno] at hflag
        cases hflag

theorem kept_moveConstruct {p p' : Process} {v : Nat} (h : Kept p) (hv : p.Live v)
    (hs : p.step (.moveConstruct v) = .ok p') : Kept p' := by
  -- The new object has the same number in every context.
  let new := (p.contexts.head?.map World.made).getD 0
  have hnew : ∀ w ∈ p.contexts, w.made = new := fun w hw => by
    cases hc : p.contexts with
    | nil =>
      rw [hc] at hw
      cases hw
    | cons w₀ ws =>
      have hw₀ : w₀ ∈ p.contexts := by rw [hc]; simp
      simp only [new, hc, List.head?_cons, Option.map_some, Option.getD_some]
      exact h.made w hw w₀ hw₀
  have hen : ∀ w ∈ p.contexts, w.Enabled (.moveConstruct v) := hv.2
  refine h.of_everywhere (n := 1) (fun x => if x = new ∧ x ∉ p.destroyed then v else x)
    hen hs (fun w _ w' hR => ?_) (fun w hw w' hR x hx => ?_) fun x hx => if_neg fun hne => hne.2 hx
  · cases hR
    unfold World.moveConstruct
    dsimp only
    split <;> rfl
  · cases hR
    have hx := moveConstruct_holders hx
    rw [hnew w hw] at hx
    by_cases hxn : x = new
    · have hlive : x ∉ p.destroyed := fun hd => by
        have := (h.destroyed x hd w hw).1
        rw [hnew w hw] at this
        omega
      simp only [hxn, if_true] at hx
      simp only [if_pos (And.intro hxn hlive)]
      exact hx
    · rw [if_neg hxn] at hx
      simp only [if_neg fun hne : x = new ∧ x ∉ p.destroyed => hxn hne.1]
      exact hx

theorem not_onObjects {ev : World.Event} (h : isCall ev = false) : ¬ ev.OnObjects := by
  cases ev <;> first | exact id | cases h

theorem kept_inContext {p p' : Process} {c : Nat} {ev : World.Event} (h : Kept p)
    (hen : p.Enabled (.inContext c ev)) (hs : p.step (.inContext c ev) = .ok p') : Kept p' := by
  obtain ⟨hcall, -, w, hw, hen⟩ := hen
  have hw : p.contexts[c]? = some w := hw
  simp only [step, hw] at hs
  obtain ⟨w₁, hstep, hs⟩ := Except.bind_ok_iff.1 hs
  cases hs
  have hmem := List.mem_of_getElem? hw
  have hsame := World.sameHolders_step (h.paired w hmem) hen (not_onObjects hcall) hstep
  refine h.of_each (n := 0) (R := fun a b => b = a ∨ a = w ∧ b = w₁) id (fun d w' hw' => ?_) (fun a ha b hab => ?_)
    (fun a _ b hab => ?_) (fun a _ b hab x hx => ?_) rfl fun _ _ => rfl
  · dsimp only at hw'
    rw [List.getElem?_set] at hw'
    split at hw'
    · next hcd =>
      split at hw'
      · cases hw'
        exact ⟨w, hcd ▸ hw, .inr ⟨rfl, rfl⟩⟩
      · cases hw'
    · exact ⟨w', hw', .inl rfl⟩
  · rcases hab with rfl | ⟨rfl, rfl⟩
    · exact h.paired _ ha
    · exact World.paired_step (h.paired _ ha) hen hstep
  · rcases hab with rfl | ⟨rfl, rfl⟩
    · rfl
    · exact hsame.made
  · rcases hab with rfl | ⟨rfl, rfl⟩
    · exact hx
    · rw [hsame.multiplexer x] at hx
      exact hx

theorem kept_step {p p' : Process} {ev : Event} (h : Kept p) (hen : p.Enabled ev) (hs : p.step ev = .ok p') :
    Kept p' := by
  cases ev with
  | socket =>
    have hen : ∀ w ∈ p.contexts, w.Enabled .socket := fun _ _ => trivial
    refine h.of_everywhere (n := 1) id hen hs (fun w _ w' hR => ?_) (fun w _ w' hR x hx => ?_)
      fun _ _ => rfl
    · cases hR
      rfl
    · cases hR
      exact hx
  | bind c v =>
    cases hs
    exact kept_bind h hen.1 hen.2
  | moveConstruct v => exact kept_moveConstruct h hen hs
  | moveAssign v v' =>
    have hen' : ∀ w ∈ p.contexts, w.Enabled (.moveAssign v v') := fun w hw => ⟨hen.1.2 w hw, hen.2.2 w hw⟩
    refine h.of_everywhere (n := 0) (fun x => if x = v then v' else x) hen' hs
      (fun w hw w' hR => ?_) (fun w hw w' hR x hx => moveAssign_holders (h.paired w hw).1 hR hx)
      fun x hx => if_neg fun hxv : x = v => hen.1.1 (hxv ▸ hx)
    obtain ⟨w₁, hclose, rfl⟩ := moveAssign_eq hR
    exact (close_kept (h.paired w hw).1 hclose).1
  | close v =>
    have hen' : ∀ w ∈ p.contexts, w.Enabled (.close v) := hen.2
    exact h.of_everywhere (n := 0) id hen' hs (fun w hw w' hR => (close_kept (h.paired w hw).1 hR).1)
      (fun w hw w' hR x hx => (close_kept (h.paired w hw).1 hR).2 x hx) fun _ _ => rfl
  | destroy v => exact kept_destroy h hen hs
  | inContext c ev => exact kept_inContext h hen hs

theorem reachable_kept {n : Nat} {p : Process} (h : Reachable Enabled step (start n) p) : Kept p :=
  h.invariant Kept (fun _ _ _ hk hen hs => kept_step hk hen hs) (kept_start n)

/-- Move assignment takes from another `socket` only if that has no `_socket_impl`. -/
def TakesUnbound (p : Process) : Event → Prop
  | .moveAssign v v' => v = v' ∨ p.bound v' = false
  | _ => True

/-- A fault of a process is one of a call in a context, and a move assignment there is the process's own. -/
theorem step_error {p : Process} {ev : Event} {f : Fault} (hen : p.Enabled ev) (h : p.step ev = .error f) :
    ∃ w ∈ p.contexts, ∃ ev', w.Enabled ev' ∧ w.step ev' = .error f ∧
      ∀ v v', ev' = .moveAssign v v' → ev = .moveAssign v v' := by
  cases ev with
  | socket =>
    obtain ⟨w, hw, hs⟩ := everywhere_error h
    exact ⟨w, hw, .socket, trivial, hs, by simp⟩
  | bind c v => cases h
  | moveConstruct v =>
    obtain ⟨w, hw, hs⟩ := everywhere_error h
    exact ⟨w, hw, .moveConstruct v, hen.2 w hw, hs, by simp⟩
  | close v =>
    obtain ⟨w, hw, hs⟩ := everywhere_error h
    exact ⟨w, hw, .close v, hen.2 w hw, hs, by simp⟩
  | moveAssign v v' =>
    obtain ⟨w, hw, hs⟩ := everywhere_error h
    exact ⟨w, hw, .moveAssign v v', ⟨hen.1.2 w hw, hen.2.2 w hw⟩, hs, by simp⟩
  | destroy v =>
    rcases Except.bind_error_iff.1 h with h | ⟨p₁, -, h⟩
    · obtain ⟨w, hw, hs⟩ := everywhere_error h
      rcases Except.bind_error_iff.1 hs with hs | ⟨w₁, -, hs⟩
      · exact ⟨w, hw, .close v, hen.2 w hw, hs, by simp⟩
      · cases hs
    · cases h
  | inContext c ev =>
    obtain ⟨hcall, -, w, hw, hen⟩ := hen
    have hw : p.contexts[c]? = some w := hw
    simp only [step, hw] at h
    rcases Except.bind_error_iff.1 h with hs | ⟨w₁, -, h⟩
    · refine ⟨w, List.mem_of_getElem? hw, ev, hen, hs, ?_⟩
      rintro v v' rfl
      cases hcall
    · cases h

/-- No event follows a null pointer, save move assignment from a `socket` that is bound. -/
theorem step_ne_null {p : Process} {ev : Event} (h : Kept p) (hen : p.Enabled ev) (htakes : p.TakesUnbound ev) :
    p.step ev ≠ .error .nullPointer ∧ p.step ev ≠ .error .nullSocket := by
  constructor
  · intro hs
    obtain ⟨w, hw, ev', hen', hs, hev⟩ := step_error hen hs
    obtain ⟨v, v', rfl, hne, hbound⟩ := World.step_nullPointer (h.paired w hw) hen' hs
    cases hev v v' rfl
    rcases htakes with heq | hnot
    · exact hne heq
    · exact hbound (impl_of_not_bound hnot w hw)
  · intro hs
    obtain ⟨w, hw, ev', hen', hs, -⟩ := step_error hen hs
    exact (World.step_ne_dead (h.paired w hw).1 hen').2.1 hs

/-- **Who owns whom.** In every reachable state of any number of contexts: no event follows a null `_socket_impl`,
`_owner` or `_utp_socket`, unless it is a move assignment from another `socket` that has a `_socket_impl`; after a
move assignment from one that has none, the target holds exactly what the source held, in every context, and the
source nothing; and the `_owner` of an open `socket_impl` is the one `socket` that has it, which lives, and holds the
multiplexer of that context and of no other. -/
theorem ownership {n : Nat} {p : Process} (h : Reachable Enabled step (start n) p) :
    (∀ ev, p.Enabled ev → p.TakesUnbound ev →
      p.step ev ≠ .error .nullPointer ∧ p.step ev ≠ .error .nullSocket) ∧
    (∀ v v' p', v ≠ v' → p.Enabled (.moveAssign v v') → p.TakesUnbound (.moveAssign v v') →
      p.step (.moveAssign v v') = .ok p' →
      List.Forall₂ (fun w w' => w'.sockets v = w.sockets v' ∧ w'.sockets v' = {}) p.contexts p'.contexts) ∧
    (∀ (c : Nat) (w : World) (i : Nat), p.contexts[c]? = some w → i ∈ w.registeredSockets →
      (w.impls i).closed = false →
      ∃ v, (w.impls i).owner = some v ∧ p.Live v ∧ (w.sockets v).impl = some i ∧ (w.sockets v).multiplexer = true ∧
        (∀ v', (w.sockets v').impl = some i → v' = v) ∧
        ∀ (d : Nat) (w' : World), p.contexts[d]? = some w' → d ≠ c → w'.sockets v = {}) := by
  have hk := reachable_kept h
  refine ⟨fun ev hen htakes => step_ne_null hk hen htakes, fun v v' p' hne hen htakes hs => ?_,
    fun c w i hw hi hopen => ?_⟩
  · obtain ⟨l, hl, hs⟩ := Except.bind_ok_iff.1 hs
    cases hs
    have hnone := impl_of_not_bound (htakes.resolve_left hne)
    obtain ⟨hlen, hget⟩ := List.forall₂_iff_get.1 (Except.mapM_ok_iff.1 hl)
    refine List.forall₂_iff_get.2 ⟨hlen, fun c h₁ h₂ => ?_⟩
    have hmem := List.get_mem p.contexts ⟨c, h₁⟩
    exact moveAssign_moves (hk.paired _ hmem).1 hne (hnone _ hmem) (hget c h₁ h₂)
  · have hmem := List.mem_of_getElem? hw
    obtain ⟨hsound, howned⟩ := hk.paired w hmem
    obtain ⟨v, howner, hv⟩ := howned.owner i hi hopen
    obtain ⟨-, hlt, hflag, -⟩ := hsound.formed.sockets v i hv
    refine ⟨v, howner, ⟨fun hd => ?_, fun w' hw' => by rw [hk.made w' hw' w hmem]; exact hlt⟩, hv, hflag,
      fun v' hv' => howned.unique v' v i hv' hv, fun d w' hw' hdc => ?_⟩
    · rw [(hk.destroyed v hd w hmem).2] at hflag
      cases hflag
    · have hsound' := (hk.paired w' (List.mem_of_getElem? hw')).1
      have hno : (w'.sockets v).multiplexer = false := by
        cases hflag' : (w'.sockets v).multiplexer with
        | false => rfl
        | true => exact absurd (hk.apart d c w' w v hw' hw hflag' hflag) hdc
      have himpl : (w'.sockets v).impl = none := by
        cases hi' : (w'.sockets v).impl with
        | none => rfl
        | some j =>
          rw [(hsound'.formed.sockets v j hi').2.2.1] at hno
          cases hno
      cases hs : w'.sockets v
      simp_all

/-- A `socket` bound in the first context is moved, closed by a send that fails, and bound in the second, where the
`socket` that holds it is its owner. -/
theorem ownership_two_contexts :
    ∃ p w, Run Enabled step (start 2) [.socket, .socket, .bind 0 0, .moveConstruct 0,
        .inContext 0 (.asyncConnect 2 default [] []), .inContext 0 (.sendto (.other 5)), .bind 1 2,
        .moveAssign 1 0] p ∧
      p.contexts[1]? = some w ∧ (w.impls 0).closed = false ∧
      ∃ v, (w.impls 0).owner = some v ∧ p.Live v ∧ (w.sockets v).impl = some 0 ∧ (w.sockets v).multiplexer = true := by
  obtain ⟨p, hrun, w, hw, hreg, hopen⟩ := exists_run Enabled step (start 2)
    [.socket, .socket, .bind 0 0, .moveConstruct 0, .inContext 0 (.asyncConnect 2 default [] []),
      .inContext 0 (.sendto (.other 5)), .bind 1 2, .moveAssign 1 0]
    (fun p => ∃ w ∈ p.contexts[1]?, 0 ∈ w.registeredSockets ∧ (w.impls 0).closed = false) (by decide)
  obtain ⟨-, -, howner⟩ := ownership ⟨_, hrun⟩
  obtain ⟨v, h1, h2, h3, h4, -⟩ := howner 1 w 0 hw hreg hopen
  exact ⟨p, w, hrun, hw, hopen, v, h1, h2, h3, h4⟩

/-- Move assignment from a bound `socket`: the assertion follows the pointer that has just been moved from. -/
theorem moveAssign_from_bound :
    ∃ p, Run Enabled step (start 1) [.socket, .socket, .bind 0 1] p ∧ p.Enabled (.moveAssign 0 1) ∧
      p.step (.moveAssign 0 1) = .error .nullPointer :=
  ⟨_, run_of_exec (by rfl), by decide, rfl⟩

end AsioUtp.Process
