/-
What is left of a context when everybody is done with it.

`socket_impl` holds its `context` and `context` holds every `socket_impl` that
was ever registered; nothing takes one off the list (`registered_made`). So a
context in which a `socket` was ever bound outlives its teardown, and all its
`socket_impl`s with it (`Process.retained_iff`).
-/
import AsioUtp.Ownership
import AsioUtp.Lib.RefCount

namespace AsioUtp

open Machine RefCount

namespace World

/-! ## The ownership graph -/

/-- The objects of one context, and those that hold them. -/
inductive Object
  | socket (v : Nat)
  | impl (i : Nat)
  | multiplexer
  | context
  | completion (c : Completion)
  deriving Repr, DecidableEq

/-- Who holds whom, by a `shared_ptr`; `made` `socket_impl`s have been made. A completion holds the context if
`exec_after` gave its handler a continuation. -/
def Holds (made : Nat) (w : World) : Object → Object → Prop
  | .socket v, .impl i => (w.sockets v).impl = some i
  | .socket v, .multiplexer => (w.sockets v).multiplexer = true
  | .impl i, .context => i < made
  | .context, .impl i => i ∈ w.registeredSockets
  | .multiplexer, .context => True
  | .completion c, .context => c.handler.after = true
  | _, _ => False

/-- What the user and the executor keep. -/
def Keeps (w : World) : Object → Prop
  | .socket v => v < w.made
  | .completion c => c ∈ w.posted ∨ c ∈ w.running
  | _ => False

/-- Everybody is done: no `socket` has a `_socket_impl`, libutp has destroyed its sockets, and every completion that
holds anything has run. (A closed `udp_multiplexer` holds no multiplexer, nor does a receive of the UDP socket, which
may still be outstanding.) -/
structure TornDown (w : World) : Prop where
  sockets : ∀ v, (w.sockets v).impl = none
  utp : ∀ u < w.created, (w.utp u).alive = false
  posted : w.posted = []
  running : w.running = []
  flushing : w.ctx.multiplexer.flushing = none
  waits : w.ctx.ticker.waits = []

/-- A `socket_impl` nobody has a use for: closed, with no `utp_socket`, no completion under way and no `socket`. -/
structure Spent (w : World) (i : Nat) : Prop where
  closed : (w.impls i).closed = true
  utpSocket : (w.impls i).utpSocket = none
  completions : ∀ c ∈ w.posted ++ w.running, c.impl ≠ some i
  sockets : ∀ v, (w.sockets v).impl ≠ some i

/-- The multiplexer of a context nothing is registered with is no `socket`'s. -/
def Unheld (w : World) : Prop := w.registeredSockets = [] → ∀ v, (w.sockets v).multiplexer = false

theorem Unheld.source {w w' : World} (h : Unheld w) (source : Nat → Nat)
    (hreg : w'.registeredSockets = w.registeredSockets)
    (hholds : ∀ v, (w'.sockets v).multiplexer = true → (w.sockets (source v)).multiplexer = true) : Unheld w' := by
  intro hnil v
  rw [hreg] at hnil
  cases hm : (w'.sockets v).multiplexer with
  | false => rfl
  | true =>
    have hheld := hholds v hm
    rw [h hnil (source v)] at hheld
    cases hheld

end World

namespace Process

/-! ## What is ever registered -/

/-- How many `socket_impl`s the event makes in context `c`. -/
def makes (p : Process) (c : Nat) : Event → Nat
  | .bind d v => if d = c ∧ p.bound v = false then 1 else 0
  | _ => 0

/-- How many a run makes there. -/
def made (c : Nat) : Process → List Event → Nat
  | _, [] => 0
  | p, ev :: es =>
    match p.step ev with
    | .ok p' => p.makes c ev + made c p' es
    | .error _ => 0

/-- What an event does to a context: it may register one `socket_impl`, and keeps an unused context unheld. -/
def Uses (n : Nat) (w w' : World) : Prop :=
  w'.registeredSockets.length = w.registeredSockets.length + n ∧ (w.Unheld → w'.Unheld)

theorem Uses.of_source {w w' : World} (source : Nat → Nat) (hreg : w'.registeredSockets = w.registeredSockets)
    (hholds : ∀ v, (w'.sockets v).multiplexer = true → (w.sockets (source v)).multiplexer = true) : Uses 0 w w' :=
  ⟨by rw [hreg]; rfl, fun h => h.source source hreg hholds⟩

theorem uses_bind {p : Process} {c d v : Nat} {w : World} (hw : w ∈ p.contexts) (hbound : p.bound v = false) :
    Uses (p.makes c (.bind d v)) w (if c = d then w.bind v else w.setSocket v {}) := by
  have hnone := impl_of_not_bound hbound w hw
  by_cases hcd : c = d
  · simp only [makes, hbound, hcd.symm, and_self, if_true]
    have hreg : (w.bind v).registeredSockets = w.registeredSockets ++ [w.registeredSockets.length] := by
      simp [World.bind, hnone, World.setImpl, World.setSocket]
    exact ⟨by simp [hreg], fun _ hnil => by simp [hreg] at hnil⟩
  · simp only [if_neg hcd, makes, Ne.symm hcd, false_and, if_false]
    exact .of_source id rfl fun x hx => (setSocket_holders hx).2

theorem uses_step {p p' : Process} {ev : Event} (h : Kept p) (hen : p.Enabled ev) (hs : p.step ev = .ok p') (c : Nat)
    {w' : World} (hw' : p'.contexts[c]? = some w') :
    ∃ w, p.contexts[c]? = some w ∧ Uses (p.makes c ev) w w' := by
  cases ev with
  | socket =>
    obtain ⟨w, hw, hR⟩ := (everywhere_each hs).1 c w' hw'
    cases hR
    exact ⟨w, hw, .of_source id rfl fun _ hx => hx⟩
  | bind d v =>
    cases hs
    unfold bind at hw'
    split at hw'
    · next hbound => exact ⟨w', hw', by simp [Uses, makes, hbound]⟩
    · next hbound =>
      dsimp only at hw'
      rw [List.getElem?_mapIdx, Option.map_eq_some_iff] at hw'
      obtain ⟨w, hw, rfl⟩ := hw'
      exact ⟨w, hw, uses_bind (List.mem_of_getElem? hw) (by simpa using hbound)⟩
  | moveConstruct v =>
    obtain ⟨w, hw, hR⟩ := (everywhere_each hs).1 c w' hw'
    cases hR
    exact ⟨w, hw, .of_source _ (World.moveConstruct_eq w v).2.1 fun x hx => moveConstruct_holders hx⟩
  | moveAssign v v' =>
    obtain ⟨w, hw, hR⟩ := (everywhere_each hs).1 c w' hw'
    have hsound := (h.paired w (List.mem_of_getElem? hw)).1
    have hreg : w'.registeredSockets = w.registeredSockets := by
      obtain ⟨w₁, hclose, rfl⟩ := moveAssign_eq hR
      exact (World.close_holders hsound hclose).1.2
    exact ⟨w, hw, .of_source _ hreg fun x hx => moveAssign_holders hsound hR hx⟩
  | close v =>
    obtain ⟨w, hw, hR⟩ := (everywhere_each hs).1 c w' hw'
    have hsound := (h.paired w (List.mem_of_getElem? hw)).1
    exact ⟨w, hw, .of_source id (World.close_holders hsound hR).1.2 (close_kept hsound hR).2⟩
  | destroy v =>
    obtain ⟨p₁, heach, hs⟩ := Except.bind_ok_iff.1 hs
    cases hs
    obtain ⟨w, hw, hR⟩ := (everywhere_each heach).1 c w' hw'
    obtain ⟨w₁, hclose, hR⟩ := Except.bind_ok_iff.1 hR
    cases hR
    have hsound := (h.paired w (List.mem_of_getElem? hw)).1
    exact ⟨w, hw, .of_source id (World.close_holders hsound hclose).1.2 fun x hx =>
      (close_kept hsound hclose).2 x (setSocket_holders hx).2⟩
  | inContext d ev =>
    obtain ⟨hcall, -, w, hw, hen⟩ := hen
    have hw : p.contexts[d]? = some w := hw
    simp only [step, hw] at hs
    obtain ⟨w₁, hstep, hs⟩ := Except.bind_ok_iff.1 hs
    cases hs
    have hsame := World.sameHolders_step (h.paired w (List.mem_of_getElem? hw)) hen (not_onObjects hcall) hstep
    dsimp only at hw'
    rw [List.getElem?_set] at hw'
    split at hw'
    · next hdc =>
      split at hw'
      · cases hw'
        exact ⟨w, hdc ▸ hw, .of_source id hsame.registered fun x hx => hsame.multiplexer x ▸ hx⟩
      · cases hw'
    · exact ⟨w', hw', .of_source id rfl fun _ hx => hx⟩

/-- Every `socket_impl` a run makes is registered at its end. -/
theorem uses_run {p p' : Process} {es : List Event} (hrun : Run Enabled step p es p') (h : Kept p) (c : Nat)
    {w' : World} (hw' : p'.contexts[c]? = some w') : ∃ w, p.contexts[c]? = some w ∧ Uses (made c p es) w w' := by
  induction hrun with
  | nil => exact ⟨w', hw', rfl, id⟩
  | @cons p ev p₁ es p' hen hs _ ih =>
    obtain ⟨w₁, hw₁, hlen₁, hheld₁⟩ := ih (kept_step h hen hs) hw'
    obtain ⟨w, hw, hlen, hheld⟩ := uses_step h hen hs c hw₁
    refine ⟨w, hw, ?_, fun hu => hheld₁ (hheld hu)⟩
    rw [hlen₁, hlen, made, hs]
    dsimp only
    omega

theorem registered_made {n c : Nat} {es : List Event} {p : Process} {w : World}
    (hrun : Run Enabled step (start n) es p) (hw : p.contexts[c]? = some w) :
    w.registeredSockets = List.range (made c (start n) es) ∧ w.Unheld := by
  obtain ⟨w₀, hw₀, hlen, hheld⟩ := uses_run hrun (kept_start n) c hw
  have hfresh : w₀ = {} := (List.mem_replicate.1 (List.mem_of_getElem? hw₀)).2
  subst hfresh
  have hsound := ((reachable_kept ⟨es, hrun⟩).paired w (List.mem_of_getElem? hw)).1
  refine ⟨?_, hheld fun _ _ => rfl⟩
  rw [hsound.formed.range, hlen]
  simp

/-! ## What is freed -/

/-- A context and a `socket_impl` registered with it hold each other. -/
theorem not_freed_cycle {m : Nat} {w : World} {i : Nat} (hi : i ∈ w.registeredSockets) (him : i < m) :
    ¬ Freed w.Keeps (w.Holds m) .context := by
  refine not_freed (fun x => x = .context ∨ x = .impl i) (fun x hx => ?_) (.inl rfl)
  rcases hx with rfl | rfl
  · exact .inr ⟨.impl i, .inr rfl, him⟩
  · exact .inr ⟨.context, .inl rfl, hi⟩

/-- With no `socket_impl` ever made, the context goes with its multiplexer. -/
theorem freed_unused {w : World} (ht : w.TornDown) (hheld : ∀ v, (w.sockets v).multiplexer = false) :
    Freed w.Keeps (w.Holds 0) .context := by
  have hmultiplexer : Freed w.Keeps (w.Holds 0) .multiplexer := by
    refine .intro id fun y hy => ?_
    cases y with
    | socket v =>
      have hy : (w.sockets v).multiplexer = true := hy
      rw [hheld v] at hy
      cases hy
    | _ => exact hy.elim
  refine .intro id fun y hy => ?_
  cases y with
  | multiplexer => exact hmultiplexer
  | impl i => exact absurd hy (Nat.not_lt_zero i)
  | completion c =>
    -- A completion that is not under way is not there to hold anything.
    refine .intro (fun hkept => ?_) fun z hz => by cases z <;> exact hz.elim
    have hkept : c ∈ w.posted ∨ c ∈ w.running := hkept
    rw [ht.posted, ht.running] at hkept
    simp at hkept
  | _ => exact hy.elim

/-- **A context outlives its teardown if a `socket` was ever bound in it.** After every run of any number of contexts:
when everybody is done with a context, reference counting frees it and the `socket_impl`s made in it exactly if none
was made. If none was, then none that nobody has a use for is registered; but each that was made is, whether anybody
has a use for it or not. -/
theorem retained_iff {n c : Nat} {es : List Event} {p : Process} {w : World}
    (hrun : Run Enabled step (start n) es p) (hw : p.contexts[c]? = some w) :
    (w.TornDown →
      (Freed w.Keeps (w.Holds (made c (start n) es)) .context ∧
          (∀ i < made c (start n) es, Freed w.Keeps (w.Holds (made c (start n) es)) (.impl i)) ↔
        made c (start n) es = 0)) ∧
    (made c (start n) es = 0 → ∀ i, w.Spent i → i ∉ w.registeredSockets) ∧
    (∀ i < made c (start n) es, i ∈ w.registeredSockets) := by
  obtain ⟨hreg, hheld⟩ := registered_made hrun hw
  have hmem : ∀ i < made c (start n) es, i ∈ w.registeredSockets := fun i hi => by
    rw [hreg]
    exact List.mem_range.2 hi
  refine ⟨fun ht => ⟨fun ⟨hfreed, _⟩ => ?_, fun hnone => ?_⟩, fun hnone i _ => ?_, hmem⟩
  · by_contra hne
    have hpos : 0 < made c (start n) es := Nat.pos_of_ne_zero hne
    exact not_freed_cycle (hmem 0 hpos) hpos hfreed
  · rw [hnone] at hreg ⊢
    exact ⟨freed_unused ht (hheld hreg), fun i hi => absurd hi (Nat.not_lt_zero i)⟩
  · rw [hreg, hnone]
    exact List.not_mem_nil

/-- That everybody is done, as far as it can be computed. -/
def Done (w : World) : Prop :=
  (∀ v < w.made, (w.sockets v).impl = none) ∧ (∀ u < w.created, (w.utp u).alive = false) ∧ w.posted = [] ∧
    w.running = [] ∧ w.ctx.multiplexer.flushing = none ∧ w.ctx.ticker.waits = []

instance (w : World) : Decidable (Done w) := inferInstanceAs (Decidable (_ ∧ _ ∧ _ ∧ _ ∧ _ ∧ _))

theorem Done.tornDown {w : World} (h : Done w) (hw : w.Formed) : w.TornDown := by
  obtain ⟨hsock, hutp, hposted, hrunning, hflushing, hwaits⟩ := h
  refine ⟨fun v => ?_, hutp, hposted, hrunning, hflushing, hwaits⟩
  cases hi : (w.sockets v).impl with
  | none => rfl
  | some i =>
    rw [hsock v (hw.sockets v i hi).2.1] at hi
    cases hi

/-- A context in which no `socket` is bound goes, whatever happens in another. -/
theorem retained_iff_unused :
    ∃ p w, Run Enabled step (start 2) [.socket, .bind 1 0, .inContext 0 (.context .destroy),
        .inContext 0 (.context .destroyed)] p ∧ p.contexts[0]? = some w ∧ w.TornDown ∧
      Freed w.Keeps (w.Holds 0) .context := by
  obtain ⟨p, hrun, w, hw, hdone⟩ := exists_run Enabled step (start 2)
    [.socket, .bind 1 0, .inContext 0 (.context .destroy), .inContext 0 (.context .destroyed)]
    (fun p => ∃ w ∈ p.contexts[0]?, Done w) (by decide)
  have hformed := ((reachable_kept ⟨_, hrun⟩).paired w (List.mem_of_getElem? hw)).1.formed
  have htorn := hdone.tornDown hformed
  exact ⟨p, w, hrun, hw, htorn, (((retained_iff hrun hw).1 htorn).2 rfl).1⟩

/-- One `socket` bound, and destroyed, and then the multiplexer: the `socket_impl` is of no use to anybody, but it is
registered, and neither it nor the context is freed. -/
theorem context_retained :
    ∃ p w, Run Enabled step (start 1) [.socket, .bind 0 0, .destroy 0, .inContext 0 (.context .destroy),
        .inContext 0 (.context .destroyed)] p ∧ p.contexts[0]? = some w ∧ w.TornDown ∧
      w.Spent 0 ∧ 0 ∈ w.registeredSockets ∧ ¬ Freed w.Keeps (w.Holds 1) .context := by
  obtain ⟨p, hrun, w, hw, hdone, hreg, hclosed, hutp⟩ := exists_run Enabled step (start 1)
    [.socket, .bind 0 0, .destroy 0, .inContext 0 (.context .destroy), .inContext 0 (.context .destroyed)]
    (fun p => ∃ w ∈ p.contexts[0]?, Done w ∧ 0 ∈ w.registeredSockets ∧ (w.impls 0).closed = true ∧
      (w.impls 0).utpSocket = none) (by decide)
  have hformed := ((reachable_kept ⟨_, hrun⟩).paired w (List.mem_of_getElem? hw)).1.formed
  have htorn := hdone.tornDown hformed
  refine ⟨p, w, hrun, hw, htorn, ⟨hclosed, hutp, fun c hc => ?_, fun v hv => ?_⟩, hreg,
    not_freed_cycle hreg Nat.one_pos⟩
  · rw [htorn.posted, htorn.running] at hc
    cases hc
  · rw [htorn.sockets v] at hv
    cases hv

end Process

end AsioUtp
