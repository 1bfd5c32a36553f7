/-
What `socket::close` releases.

Two functions let go of what a `socket` holds. `socket::close` drops both
`_socket_impl` and `_multiplexer`, but only of a `socket` that has a
`_socket_impl`, and it asks that one to abort its operations only if it is
open. `close_with_error` takes the `_socket_impl` from its owner when libutp
made it run, and leaves the `_multiplexer`. So a `socket` closed by a failed
send keeps its multiplexer through any number of `close`s, and an operation
started on a `_socket_impl` that is closed already is dropped with it.
Everything else about `close` holds in every state (`close_unbinds`).
-/
import AsioUtp.FatalSend
import AsioUtp.Ownership

namespace AsioUtp

open Machine

namespace World

/-! ## In one context -/

/-- `socket::is_open`. -/
def isOpen (w : World) (v : Nat) : Bool :=
  match (w.sockets v).impl with
  | none => false
  | some i => !(w.impls i).closed

theorem isOpen_of_impl {w : World} {v : Nat} (h : (w.sockets v).impl = none) : w.isOpen v = false := by
  simp [isOpen, h]

theorem close_of_impl {w : World} {v : Nat} (h : (w.sockets v).impl = none) : w.close v = .ok w := by
  simp [close, h]

theorem bind_impl {w : World} {v : Nat} (h : (w.sockets v).impl = none) :
    ((w.bind v).sockets v).impl = some w.registeredSockets.length := by
  simp [bind, h]

/-- The paths through `close` of a `socket` that has a `_socket_impl`. -/
theorem close_cases {w w' : World} {v i : Nat} (hi : (w.sockets v).impl = some i) (h : w.close v = .ok w') :
    ((w.impls i).closed = true ∧ w' = w.setSocket v {}) ∨
      (w.impls i).closed = false ∧
        ∃ w₁, w.closeWithError i .operationAborted = .ok w₁ ∧ w' = w₁.setSocket v {} := by
  simp only [close, hi] at h
  split at h
  · next hc =>
    cases h
    exact .inl ⟨hc, rfl⟩
  · next hc =>
    obtain ⟨w₁, hw₁, h⟩ := Except.bind_ok_iff.1 h
    cases h
    exact .inr ⟨by simpa using hc, w₁, hw₁, rfl⟩

theorem close_sockets {w w' : World} {v i : Nat} (hi : (w.sockets v).impl = some i) (h : w.close v = .ok w') :
    w'.sockets v = {} := by
  rcases close_cases hi h with ⟨-, rfl⟩ | ⟨-, w₁, -, rfl⟩ <;> simp

/-- The completions posted between `w` and `w'` are, slot by slot, those of what was pending on `i`. -/
def PostedAll (w w' : World) (i : Nat) : Prop :=
  ∃ e, ∀ slot, ofSlot i slot (w'.posted.drop w.posted.length) =
    (((w.impls i).handlers slot).map fun x => ({ impl := some i, slot, handler := x, ec := e } : Completion)).toList

/-- An open `_socket_impl` is among the sockets that fall. -/
theorem close_posts_open {w w' : World} {v i : Nat} (hw : Sound w) (hi : (w.sockets v).impl = some i)
    (hopen : (w.impls i).closed = false) (h : w.close v = .ok w') : PostedAll w w' i := by
  rcases close_cases hi h with ⟨hc, -⟩ | ⟨-, w₁, hclose, rfl⟩
  · rw [hopen] at hc
    cases hc
  · have hcovers : Covers (fun _ => True) w := fun _ _ _ _ _ _ _ _ => trivial
    obtain ⟨fs, hfs⟩ := closeWithErrorDepth_falls hcovers trivial (hw.formed.sockets v i hi).1 hclose
    have hmem : i ∈ fs.map Prod.fst := by
      by_contra hno
      have hclosed := closeWithError_closed hclose
      rw [hfs.others i hno, hopen] at hclosed
      cases hclosed
    obtain ⟨e, -, hposted⟩ := hfs.posted_once hmem
    exact ⟨e, hposted⟩

/-- From a closed one nothing is posted, so nothing may be pending. -/
theorem close_posts_closed {w w' : World} {v i : Nat} (hi : (w.sockets v).impl = some i)
    (hc : (w.impls i).closed = true) (h : w.close v = .ok w') :
    PostedAll w w' i ↔ ∀ slot, ¬ w.Pending i slot := by
  rcases close_cases hi h with ⟨-, rfl⟩ | ⟨hopen, -⟩
  · have hnothing : (w.setSocket v {}).posted.drop w.posted.length = [] := List.drop_length
    unfold PostedAll Pending
    rw [hnothing]
    constructor
    · rintro ⟨e, he⟩ slot hp
      have := he slot
      cases hx : (w.impls i).handlers slot with
      | none => exact hp hx
      | some x => simp [hx, ofSlot] at this
    · intro hno
      refine ⟨.success, fun slot => ?_⟩
      rw [not_not.1 (hno slot)]
      rfl
  · rw [hc] at hopen
    cases hopen

end World

namespace Process

/-! ## In the process -/

/-- `socket::is_open`. -/
def isOpen (p : Process) (v : Nat) : Bool := p.contexts.any fun w => w.isOpen v

/-- Does the `socket` have a `_multiplexer`? -/
def holds (p : Process) (v : Nat) : Bool := p.contexts.any fun w => (w.sockets v).multiplexer

/-- The `socket` is not bound: it is not open, another `close` does nothing and `bind` is not refused. -/
structure Unbound (p : Process) (v : Nat) : Prop where
  impl : p.bound v = false
  isOpen : p.isOpen v = false
  again : p.step (.close v) = .ok p
  rebind : ∀ c < p.contexts.length, (p.bind c v).bound v = true

/-- Between `p` and `p'` the `socket` has let go of everything, and what was pending on its
`_socket_impl` is posted. -/
structure Released (p p' : Process) (v : Nat) : Prop extends Unbound p' v where
  multiplexer : p'.holds v = false
  posted : ∀ (c : Nat) (w w' : World) (i : Nat), p.contexts[c]? = some w → p'.contexts[c]? = some w' →
    (w.sockets v).impl = some i → World.PostedAll w w' i

/-- The `socket` has its `_socket_impl`, or no `_multiplexer` either; and on a `_socket_impl` that is closed
nothing is pending. -/
def Releasable (p : Process) (v : Nat) : Prop :=
  (p.bound v = true ∨ p.holds v = false) ∧
    ∀ w ∈ p.contexts, ∀ i, (w.sockets v).impl = some i → (w.impls i).closed = true → ∀ slot, ¬ w.Pending i slot

theorem bound_iff {p : Process} {v : Nat} : p.bound v = true ↔ ∃ w ∈ p.contexts, ∃ i, (w.sockets v).impl = some i := by
  simp [bound, Option.isSome_iff_exists]

theorem holds_eq_false_iff {p : Process} {v : Nat} :
    p.holds v = false ↔ ∀ w ∈ p.contexts, (w.sockets v).multiplexer = false := by
  simp [holds]

theorem close_of_not_bound {p : Process} {v : Nat} (h : p.bound v = false) : p.step (.close v) = .ok p := by
  have hall : p.contexts.mapM (fun w => w.step (.close v)) = .ok p.contexts := by
    rw [Except.mapM_ok_iff, List.forall₂_same]
    exact fun w hw => World.close_of_impl (impl_of_not_bound h w hw)
  simp only [step, everywhere, hall]
  rfl

theorem bind_bound {p : Process} {c v : Nat} (h : p.bound v = false) (hc : c < p.contexts.length) :
    (p.bind c v).bound v = true := by
  have hget : p.contexts[c]? = some (p.contexts.get ⟨c, hc⟩) := by simp
  have hnone := impl_of_not_bound h _ (List.mem_of_getElem? hget)
  refine bound_iff.2 ⟨_, List.mem_of_getElem? (i := c) ?_, _, World.bind_impl hnone⟩
  simp [bind, h, hget]

theorem unbound_of_not_bound {p : Process} {v : Nat} (h : p.bound v = false) : Unbound p v where
  impl := h
  isOpen := List.any_eq_false.2 fun w hw => by simp [World.isOpen_of_impl (impl_of_not_bound h w hw)]
  again := close_of_not_bound h
  rebind _ hc := bind_bound h hc

/-- **Whatever the state was, the `socket` is not bound after `close`.** -/
theorem close_unbinds {p p' : Process} {v : Nat} (hs : p.step (.close v) = .ok p') : Unbound p' v := by
  obtain ⟨heach, -⟩ := everywhere_each hs
  refine unbound_of_not_bound (List.any_eq_false.2 fun w' hw' => ?_)
  obtain ⟨w, -, hclose⟩ := heach.mem hw'
  simp [World.close_impl hclose]

/-- What a `socket` has after `close` it had before, of the same context. -/
theorem held_before_close {p p' : Process} {v c : Nat} {w' : World} (h : Kept p) (hs : p.step (.close v) = .ok p')
    (hw' : p'.contexts[c]? = some w') (hm : (w'.sockets v).multiplexer = true) :
    ∃ w, p.contexts[c]? = some w ∧ w.close v = .ok w' ∧ (w.sockets v).multiplexer = true := by
  obtain ⟨w, hw, hclose⟩ := (everywhere_each hs).1 c w' hw'
  exact ⟨w, hw, hclose, (close_kept (h.paired w (List.mem_of_getElem? hw)).1 hclose).2 v hm⟩

/-- A `socket` bound in one context has no multiplexer of another, and `close` drops the one it has. -/
theorem close_drops_bound {p p' : Process} {v : Nat} (h : Kept p) (hb : p.bound v = true)
    (hs : p.step (.close v) = .ok p') : p'.holds v = false := by
  obtain ⟨w₀, hw₀, i, hi⟩ := bound_iff.1 hb
  obtain ⟨c₀, hc₀⟩ := List.getElem?_of_mem hw₀
  have hm₀ := ((h.paired w₀ hw₀).1.formed.sockets v i hi).2.2.1
  refine holds_eq_false_iff.2 fun w' hw' => Bool.eq_false_iff.2 fun hm => ?_
  obtain ⟨c, hc⟩ := List.getElem?_of_mem hw'
  obtain ⟨w, hw, hclose, hbefore⟩ := held_before_close h hs hc hm
  -- this is the context it is bound in
  obtain rfl := h.apart c c₀ w w₀ v hw hc₀ hbefore hm₀
  obtain rfl : w = w₀ := Option.some.inj (hw.symm.trans hc₀)
  rw [World.close_sockets hi hclose] at hm
  cases hm

theorem close_keeps_none {p p' : Process} {v : Nat} (h : Kept p) (hno : p.holds v = false)
    (hs : p.step (.close v) = .ok p') : p'.holds v = false := by
  refine holds_eq_false_iff.2 fun w' hw' => Bool.eq_false_iff.2 fun hm => ?_
  obtain ⟨c, hc⟩ := List.getElem?_of_mem hw'
  obtain ⟨w, hw, -, hbefore⟩ := held_before_close h hs hc hm
  rw [holds_eq_false_iff.1 hno w (List.mem_of_getElem? hw)] at hbefore
  cases hbefore

theorem close_drops_iff {p p' : Process} {v : Nat} (h : Kept p) (hs : p.step (.close v) = .ok p') :
    p'.holds v = false ↔ p.bound v = true ∨ p.holds v = false := by
  constructor
  · intro hno
    cases hb : p.bound v with
    | true => exact .inl rfl
    | false =>
      cases (close_of_not_bound hb).symm.trans hs
      exact .inr hno
  · rintro (hb | hno)
    · exact close_drops_bound h hb hs
    · exact close_keeps_none h hno hs

/-- **`close` releases everything and posts every pending handler exactly if the `socket` still has its
`_socket_impl`, or has no `_multiplexer` either, and nothing is pending on a `_socket_impl` that is closed.**
Not bound it is afterwards in any case. -/
theorem close_releases_iff {n : Nat} {p p' : Process} {v : Nat} (h : Reachable Enabled step (start n) p)
    (hs : p.step (.close v) = .ok p') : Unbound p' v ∧ (Released p p' v ↔ Releasable p v) := by
  have hkept := reachable_kept h
  have hunbound := close_unbinds hs
  refine ⟨hunbound, fun hrel => ⟨(close_drops_iff hkept hs).1 hrel.multiplexer, ?_⟩, fun hable => ?_⟩
  · intro w hw i hi hc
    obtain ⟨c, hcw⟩ := List.getElem?_of_mem hw
    obtain ⟨w', hw', hclose⟩ := everywhere_some hs hcw
    exact (World.close_posts_closed hi hc hclose).1 (hrel.posted c w w' i hcw hw' hi)
  · refine ⟨hunbound, (close_drops_iff hkept hs).2 hable.1, fun c w w' i hw hw' hi => ?_⟩
    have hmem := List.mem_of_getElem? hw
    obtain ⟨w₁, hw₁, hclose⟩ := everywhere_some hs hw
    obtain rfl : w' = w₁ := Option.some.inj (hw'.symm.trans hw₁)
    cases hc : (w.impls i).closed with
    | false => exact World.close_posts_open (hkept.paired w hmem).1 hi hc hclose
    | true => exact (World.close_posts_closed hi hc hclose).2 (hable.2 w hmem i hi hc)

/-- A `socket` bound in the second of two contexts is closed with a connect and a read pending. -/
theorem close_releases_connecting :
    ∃ p p' : Process, Run Enabled step (start 2)
        [.socket, .bind 1 0, .inContext 1 (.asyncConnect 0 default [] []), .inContext 1 (.asyncReadSome 0 [[0]])] p ∧
      p.step (.close 0) = .ok p' ∧ Released p p' 0 := by
  obtain ⟨p, hrun, hb, hopen, p', hs⟩ := exists_run Enabled step (start 2)
    [.socket, .bind 1 0, .inContext 1 (.asyncConnect 0 default [] []), .inContext 1 (.asyncReadSome 0 [[0]])]
    (fun p => p.bound 0 = true ∧ (∀ w ∈ p.contexts, ∀ i ∈ (w.sockets 0).impl, (w.impls i).closed = false) ∧
      ∃ p', p.step (.close 0) = .ok p') ⟨_, rfl, by decide, by decide, _, rfl⟩
  refine ⟨p, p', hrun, hs, (close_releases_iff ⟨_, hrun⟩ hs).2.2 ⟨.inl hb, fun w hw i hi hc => ?_⟩⟩
  rw [hopen w hw i hi] at hc
  cases hc

/-- A send fails while a `socket` is connected: closing the `socket` after that leaves it its multiplexer. And
a write on a `socket` that has read the end of its stream is not posted when the `socket` is closed. -/
theorem close_leaves_multiplexer_or_handler :
    (∃ p p' : Process, Run Enabled step (start 1)
        [.socket, .bind 0 0, .inContext 0 (.asyncConnect 0 default [] []), .inContext 0 (.sendto (.other 5))] p ∧
      p.step (.close 0) = .ok p' ∧ p'.holds 0 = true) ∧
    ∃ p p' : Process, Run Enabled step (start 1)
        [.socket, .bind 0 0, .inContext 0 (.asyncConnect 0 default [] []), .inContext 0 (.stateChange 0 .connect []),
          .inContext 0 (.stateChange 0 .eof []), .inContext 0 (.asyncReadSome 0 [[0]]),
          .inContext 0 (.asyncWriteSome 0 [[1, 2, 3]] [])] p ∧
      p.step (.close 0) = .ok p' ∧
      (∃ w ∈ p.contexts[0]?, (w.sockets 0).impl = some 0 ∧ w.Pending 0 .send) ∧
      ∃ w' ∈ p'.contexts[0]?, w'.Pending 0 .send ∧ ∀ q ∈ w'.posted, q.slot ≠ .send :=
  ⟨⟨_, _, run_of_exec (by rfl), rfl, by decide⟩, _, _, run_of_exec (by rfl), rfl, by decide, by decide⟩

end Process

end AsioUtp
