/-
Where a handler is. A handler handed to the library is in a slot, or posted,
or being called, and at one of these places only: `tally p` counts the
handlers `p` is true of over all of them, and `tally_move` says what every
move does to the count. An operation that starts adds its handler, a handler
that returns takes its own away, and nothing else makes or loses one, where
a socket is closed in the middle of a call included.
-/
import AsioUtp.Handles

namespace AsioUtp

/-- How many slots hold a handler `p` is true of. -/
def SocketImpl.held (p : Handler → Bool) (s : SocketImpl) : Nat :=
  [Slot.connect, .accept, .recv, .send].countP fun slot => (s.handlers slot).any p

namespace World

open Machine

/-- What the registered sockets add up to. -/
def total (f : SocketImpl → Nat) (w : World) : Nat := (w.registeredSockets.map fun i => f (w.impls i)).sum

/-- The handlers on their way to the user. -/
def due (p : Handler → Bool) (w : World) : Nat := (w.posted ++ w.running).countP fun c => p c.handler

def tally (p : Handler → Bool) (w : World) : Nat := w.total (SocketImpl.held p) + w.due p

/-! ## Adding up -/

theorem sum_map_update {l : List Nat} (hl : l.Nodup) (f : Nat → Nat) {i : Nat} (hi : i ∈ l) (x : Nat) :
    (l.map (Function.update f i x)).sum + f i = (l.map f).sum + x := by
  induction l with
  | nil => cases hi
  | cons j l ih =>
    obtain ⟨hj, hl⟩ := List.nodup_cons.1 hl
    rw [List.map_cons, List.map_cons, List.sum_cons, List.sum_cons]
    by_cases hji : j = i
    · subst hji
      have hsame : l.map (Function.update f j x) = l.map f := List.map_congr_left fun k hk => by
        rw [Function.update_of_ne fun hkj : k = j => hj (hkj ▸ hk)]
      rw [hsame, Function.update_self]
      omega
    · have := ih hl ((List.mem_cons.1 hi).resolve_left fun h => hji h.symm)
      rw [Function.update_of_ne hji]
      omega

theorem total_setImpl {w w' : World} (f : SocketImpl → Nat) (hf : Formed w) {i : Nat} {s : SocketImpl}
    (hi : i ∈ w.registeredSockets) (hreg : w'.registeredSockets = w.registeredSockets)
    (himpl : w'.impls = Function.update w.impls i s) : w'.total f + f (w.impls i) = w.total f + f s := by
  have hcomp : (fun j => f (w'.impls j)) = Function.update (fun j => f (w.impls j)) i (f s) := by
    rw [himpl]
    exact Function.comp_update f w.impls i s
  unfold total
  rw [hreg, hcomp]
  exact sum_map_update hf.nodup (fun j => f (w.impls j)) hi (f s)

theorem total_same {w w' : World} {f : SocketImpl → Nat} (hreg : w'.registeredSockets = w.registeredSockets)
    (h : ∀ j, f (w'.impls j) = f (w.impls j)) : w'.total f = w.total f := by
  unfold total
  rw [hreg]
  simp only [h]

/-- A new socket adds nothing. -/
theorem total_bind {w : World} {f : SocketImpl → Nat} (hf : Formed w) (v : Nat) (h : f { owner := some v } = 0) :
    (w.bind v).total f = w.total f := by
  unfold World.bind
  split
  · rfl
  · have hother : ∀ j ∈ w.registeredSockets, j ≠ w.registeredSockets.length := fun j hj he =>
      hf.unregistered (he ▸ hj)
    have hold : (w.registeredSockets.map fun j =>
        f (Function.update w.impls w.registeredSockets.length { owner := some v } j)) =
          w.registeredSockets.map fun j => f (w.impls j) :=
      List.map_congr_left fun j hj => by rw [Function.update_of_ne (hother j hj)]
    simp only [total, setImpl, setSocket, List.map_append, hold, List.sum_append]
    simp [h]

theorem held_eq (p : Handler → Bool) (s : SocketImpl) :
    s.held p = ((s.handlers .accept).any p).toNat + ((s.handlers .connect).any p).toNat +
      ((s.handlers .recv).any p).toNat + ((s.handlers .send).any p).toNat := by
  simp only [SocketImpl.held, List.countP_cons, List.countP_nil]
  cases (s.handlers .connect).any p <;> cases (s.handlers .accept).any p <;>
    cases (s.handlers .recv).any p <;> cases (s.handlers .send).any p <;> rfl

/-- Setting a slot. -/
theorem held_setHandler (p : Handler → Bool) (s : SocketImpl) (slot : Slot) (x : Option Handler) :
    (s.setHandler slot x).held p + ((s.handlers slot).any p).toNat = s.held p + (x.any p).toNat := by
  cases slot <;> simp [held_eq] <;> omega

theorem held_fill {p : Handler → Bool} {s : SocketImpl} {slot : Slot} (x : Handler) (h : s.handlers slot = none) :
    (s.setHandler slot (some x)).held p = s.held p + (p x).toNat := by
  have := held_setHandler p s slot (some x)
  rw [h] at this
  simpa using this

theorem held_clear {p : Handler → Bool} {s : SocketImpl} {slot : Slot} {x : Handler} (h : s.handlers slot = some x) :
    s.held p = (s.setHandler slot none).held p + (p x).toNat := by
  have := held_setHandler p s slot none
  rw [h] at this
  simpa using this.symm

theorem held_eq_zero {p : Handler → Bool} {s : SocketImpl} (h : ∀ slot, s.handlers slot = none) : s.held p = 0 := by
  simp [held_eq, h]

/-- Closing posts what was in the slots. -/
theorem countP_closings (p : Handler → Bool) (s : SocketImpl) (i : Nat) (ec : ErrorCode) :
    (closings s i ec).countP (fun c => p c.handler) = s.held p := by
  have hslot : ∀ slot, (((s.handlers slot).map fun x =>
      ({ impl := some i, slot, handler := x, ec } : Completion)).toList).countP (fun c => p c.handler) =
        ((s.handlers slot).any p).toNat := by
    intro slot
    cases s.handlers slot with
    | none => rfl
    | some x => cases hx : p x <;> simp [hx]
  have hlist : closings s i ec = [Slot.accept, .connect, .recv, .send].flatMap fun slot =>
      ((s.handlers slot).map fun x => ({ impl := some i, slot, handler := x, ec } : Completion)).toList :=
    List.filterMap_eq_flatMap_toList _ _
  rw [hlist, held_eq]
  simp only [List.flatMap_cons, List.flatMap_nil, List.append_nil, List.countP_append, hslot]
  omega

theorem due_post (p : Handler → Bool) (w : World) (c : Completion) :
    (w.post c).due p = w.due p + (p c.handler).toNat := by
  simp only [due, post, List.countP_append, List.countP_cons, List.countP_nil]
  cases p c.handler with
  | false => rfl
  | true =>
    simp only [if_true, Bool.toNat_true]
    omega

theorem due_closings {p : Handler → Bool} {w w' : World} {i : Nat} {ec : ErrorCode}
    (hp : w'.posted = w.posted ++ closings (w.impls i) i ec) (hr : w'.running = w.running) :
    w'.due p = w.due p + (w.impls i).held p := by
  simp only [due, hp, hr, List.countP_append, countP_closings]
  omega

theorem due_run {p : Handler → Bool} {w : World} {c : Completion} (hc : c ∈ w.posted) : (w.run c).due p = w.due p := by
  have hperm := (List.perm_cons_erase hc).countP_eq (fun c => p c.handler)
  simp only [due, run, List.countP_append, List.countP_cons] at hperm ⊢
  omega

theorem due_ran (p : Handler → Bool) (w : World) :
    w.ran.due p + (w.running.head?.any fun c => p c.handler).toNat = w.due p := by
  have hran : w.ran.posted = w.posted ∧ w.ran.running = w.running.tail := by
    unfold World.ran
    split
    · next h => simp [h]
    · next h => dsimp only; split <;> simp [h]
  unfold due
  rw [hran.1, hran.2]
  cases w.running with
  | nil => rfl
  | cons c rest =>
    simp only [List.tail_cons, List.head?_cons, Option.any_some, List.countP_append, List.countP_cons]
    cases p c.handler with
    | false => rfl
    | true =>
      simp only [if_true, Bool.toNat_true]
      omega

/-! ## Handlers in their places -/

structure Placed (w : World) : Prop where
  after : ∀ i slot x, (w.impls i).handlers slot = some x → x.after = true
  connected : ∀ i, w.Pending i .connect → (w.impls i).utpSocket ≠ none
  idle : ∀ i, i ∉ w.registeredSockets →
    (w.impls i).closed = false ∧ (w.impls i).decrementClose = false ∧ ∀ slot, (w.impls i).handlers slot = none

theorem placed_init : Placed {} where
  after := by simp
  connected := by simp [Pending]
  idle := by simp

theorem Placed.registered_of_decrement {w : World} (h : Placed w) {i : Nat} (hd : (w.impls i).decrementClose = true) :
    i ∈ w.registeredSockets := by
  by_contra hi
  rw [(h.idle i hi).2.1] at hd
  cases hd

/-- Whoever has something to do is registered. -/
theorem Placed.registered {w : World} (h : Placed w) {i : Nat} {slot : Slot} {x : Handler}
    (hx : (w.impls i).handlers slot = some x) : i ∈ w.registeredSockets := by
  by_contra hi
  rw [(h.idle i hi).2.2] at hx
  cases hx

/-- Its slots, its attachment and its close. -/
def standing (s : SocketImpl) : (Slot → Option Handler) × Option Nat × Bool × Bool :=
  (s.handlers, s.utpSocket, s.closed, s.decrementClose)

theorem Placed.same {w w' : World} (h : Placed w) (hreg : w'.registeredSockets = w.registeredSockets)
    (himpl : ∀ j, standing (w'.impls j) = standing (w.impls j)) : Placed w' := by
  simp only [standing, Prod.mk.injEq] at himpl
  refine ⟨fun j slot x => ?_, fun j => ?_, fun j hj => ?_⟩
  · rw [(himpl j).1]
    exact h.after j slot x
  · rw [Pending, (himpl j).1, (himpl j).2.1]
    exact h.connected j
  · rw [(himpl j).1, (himpl j).2.2.1, (himpl j).2.2.2]
    exact h.idle j (hreg ▸ hj)

theorem Placed.setImpl {w w' : World} (h : Placed w) {i : Nat} {s : SocketImpl}
    (hi : i ∈ w.registeredSockets) (hreg : w'.registeredSockets = w.registeredSockets)
    (himpl : w'.impls = Function.update w.impls i s) (hafter : ∀ slot x, s.handlers slot = some x → x.after = true)
    (hconn : s.handlers .connect ≠ none → s.utpSocket ≠ none) : Placed w' where
  after j slot x hx := by
    rw [himpl] at hx
    by_cases hji : j = i
    · subst hji
      rw [Function.update_self] at hx
      exact hafter slot x hx
    · rw [Function.update_of_ne hji] at hx
      exact h.after j slot x hx
  connected j hj := by
    rw [Pending, himpl] at hj
    rw [himpl]
    by_cases hji : j = i
    · subst hji
      rw [Function.update_self] at hj ⊢
      exact hconn hj
    · rw [Function.update_of_ne hji] at hj ⊢
      exact h.connected j hj
  idle j hj := by
    rw [hreg] at hj
    have hji : j ≠ i := fun hji => hj (hji ▸ hi)
    rw [himpl, Function.update_of_ne hji]
    exact h.idle j hj

/-- What is in the slots after one has been set. -/
theorem Placed.after_setHandler {w : World} (h : Placed w) (i : Nat) (slot : Slot) (x : Option Handler)
    (hx : ∀ y ∈ x, y.after = true) :
    ∀ slot' y, ((w.impls i).setHandler slot x).handlers slot' = some y → y.after = true := by
  intro slot' y hy
  rw [setHandler_handlers] at hy
  by_cases hs : slot' = slot
  · subst hs
    rw [Function.update_self] at hy
    exact hx y hy
  · rw [Function.update_of_ne hs] at hy
    exact h.after i slot' y hy

/-- Setting a slot does not make a connect pending, unless it is that. -/
theorem Placed.connected_setHandler {w : World} (h : Placed w) (i : Nat) (slot : Slot) (x : Option Handler)
    (hx : slot = .connect → x = none) :
    ((w.impls i).setHandler slot x).handlers .connect ≠ none → (w.impls i).utpSocket ≠ none := by
  rw [setHandler_handlers]
  by_cases hs : Slot.connect = slot
  · rw [← hs, Function.update_self]
    exact fun hp => absurd (hx hs.symm) hp
  · rw [Function.update_of_ne hs]
    exact h.connected i

theorem placed_bind {w : World} {v : Nat} (h : Placed w) : Placed (w.bind v) := by
  unfold World.bind
  split
  · exact h
  · set n := w.registeredSockets.length
    refine ⟨fun j slot x hx => ?_, fun j hj => ?_, fun j hj => ?_⟩
    · by_cases hjn : j = n
      · subst hjn
        simp [setSocket] at hx
      · exact h.after j slot x (by simpa [setSocket, hjn] using hx)
    · by_cases hjn : j = n
      · subst hjn
        simp [setSocket, Pending] at hj
      · simpa [setSocket, hjn] using h.connected j (by simpa [Pending, setSocket, hjn] using hj)
    · have hj : j ∉ w.registeredSockets ++ [n] := hj
      rw [List.mem_append, List.mem_singleton, not_or] at hj
      simpa [setSocket, hj.2] using h.idle j hj.1

theorem placed_move {w w' : World} {l : Label} (hf : Formed w) (h : Placed w) (hm : Move w l w') : Placed w' := by
  cases hm with
  | setup hi _ hc _ _ _ =>
    exact h.setImpl hi rfl rfl (h.after_setHandler _ _ _ (by simp))
      (h.connected_setHandler _ _ _ fun he => absurd he hc)
  | connect hi _ _ => exact h.setImpl hi rfl rfl (h.after_setHandler _ _ _ (by simp)) fun _ => by simp
  | waiting hi _ _ _ =>
    exact h.setImpl hi rfl rfl (h.after_setHandler _ _ _ (by simp)) (h.connected_setHandler _ _ _ (by simp))
  | take hx | post hx _ =>
    exact h.setImpl (h.registered hx) rfl rfl (h.after_setHandler _ _ _ (by simp))
      (h.connected_setHandler _ _ _ fun _ => rfl)
  | @shut i ec hi _ _ =>
    obtain ⟨utp, heq, -⟩ := shutUtp_eq w i ec
    rw [heq]
    exact h.setImpl hi rfl rfl (fun _ _ hx => by cases hx) fun hx => absurd rfl hx
  | finish hclosed hfin =>
    rename_i i
    have hi : i ∈ w.registeredSockets := by
      by_contra hi
      rw [(h.idle i hi).1] at hclosed
      cases hclosed
    obtain ⟨-, c, -, rfl⟩ := finishClose_ok_iff.1 hfin
    exact h.setImpl hi rfl rfl (h.after i) (h.connected i)
  | data hs | received hs =>
    exact h.same rfl
      (update_field standing (by simp [standing, hs.handlers, hs.utpSocket, hs.closed, hs.decrementClose]))
  | eof => exact h.same rfl (update_field standing rfl)
  | accept _ _ hx _ _ _ _ _ =>
    exact h.setImpl (h.registered hx) rfl rfl (h.after_setHandler _ _ _ (by simp)) fun _ => by simp
  | destroy _ hu _ _ =>
    exact h.setImpl (hf.userdata _ _ hu) rfl rfl (fun _ _ hx => by cases hx) fun hx => absurd rfl hx
  | @decrement i hd =>
    have hi : i ∈ w.registeredSockets := by
      by_contra hi
      rw [(h.idle i hi).2.1] at hd
      cases hd
    exact h.setImpl hi rfl rfl (h.after i) (h.connected i)
  | bind => exact placed_bind h
  | moveConstruct =>
    unfold World.moveConstruct
    dsimp only
    split
    · exact h.same rfl (update_field standing rfl)
    · exact h.same rfl fun _ => rfl
  | ran =>
    unfold World.ran
    split
    · exact h
    · dsimp only
      split <;> exact h.same rfl fun _ => rfl
  | direct | wrote | create | die | number | socket | release | assign | run | loop =>
    exact h.same rfl fun _ => rfl

/-! ## What the moves do -/

/-- The handlers a move brings in, and those it takes away. -/
def Label.gained (p : Handler → Bool) : Label → Nat
  | .setup _ _ x | .connect _ x | .waiting _ x => (p { x with after := true }).toNat
  | .direct c => (p c.handler).toNat
  | _ => 0

def Label.lost (p : Handler → Bool) (w : World) : Label → Nat
  | .take i => (((w.impls i).handlers .send).any p).toNat
  | .ran => (w.running.head?.any fun c => p c.handler).toNat
  | _ => 0

/-- From `w` to `w'` the count gains `gain` and loses `loss`. -/
def Counts (p : Handler → Bool) (w w' : World) (gain loss : Nat) : Prop :=
  w'.tally p + loss = w.tally p + gain

theorem tally_setImpl {p : Handler → Bool} {w w' : World} {gain loss : Nat} (hf : Formed w) {i : Nat} {s : SocketImpl}
    (hi : i ∈ w.registeredSockets) (hreg : w'.registeredSockets = w.registeredSockets)
    (himpl : w'.impls = Function.update w.impls i s) {m : Nat} (hm : w'.due p = m)
    (h : s.held p + m + loss = (w.impls i).held p + w.due p + gain) : Counts p w w' gain loss := by
  have := total_setImpl (SocketImpl.held p) hf hi hreg himpl
  unfold Counts tally
  omega

theorem tally_same {p : Handler → Bool} {w w' : World} {gain loss : Nat}
    (hreg : w'.registeredSockets = w.registeredSockets)
    (himpl : ∀ j, (w'.impls j).handlers = (w.impls j).handlers) (h : w'.due p + loss = w.due p + gain) :
    Counts p w w' gain loss := by
  have htotal : w'.total (SocketImpl.held p) = w.total (SocketImpl.held p) := by
    refine total_same hreg fun j => ?_
    unfold SocketImpl.held
    rw [himpl]
  unfold Counts tally
  omega

/-- All slots emptied at once, and what was in them posted. -/
theorem tally_shut {p : Handler → Bool} {w w' : World} (hf : Formed w) {i : Nat} {s : SocketImpl} {ec : ErrorCode}
    (hi : i ∈ w.registeredSockets) (hreg : w'.registeredSockets = w.registeredSockets)
    (himpl : w'.impls = Function.update w.impls i s) (hs : ∀ slot, s.handlers slot = none)
    (hposted : w'.posted = w.posted ++ closings (w.impls i) i ec) (hrunning : w'.running = w.running) :
    Counts p w w' 0 0 := by
  refine tally_setImpl hf hi hreg himpl (due_closings hposted hrunning) ?_
  rw [held_eq_zero hs]
  omega

/-- A handler goes from its slot to the user. -/
theorem tally_post {p : Handler → Bool} {w w' : World} (hf : Formed w) {i : Nat} {s : SocketImpl} {slot : Slot}
    {x : Handler} (hi : i ∈ w.registeredSockets) (hx : (w.impls i).handlers slot = some x)
    (hreg : w'.registeredSockets = w.registeredSockets) (himpl : w'.impls = Function.update w.impls i s)
    (hs : s.handlers = Function.update (w.impls i).handlers slot none) (hdue : w'.due p = w.due p + (p x).toNat) :
    Counts p w w' 0 0 := by
  refine tally_setImpl hf hi hreg himpl hdue ?_
  have hclear : s.held p = ((w.impls i).setHandler slot none).held p := by
    unfold SocketImpl.held
    rw [hs, setHandler_handlers]
  rw [held_clear hx, hclear]
  omega

/-- **No move makes or loses a handler** but those that start an operation and those that end one. -/
theorem tally_move (p : Handler → Bool) {w w' : World} {l : Label} (hf : Formed w) (h : Placed w) (hm : Move w l w') :
    Counts p w w' (l.gained p) (l.lost p w) := by
  cases hm with
  | setup hi hempty _ _ _ _ =>
    refine tally_setImpl hf hi rfl rfl (m := w.due p) rfl ?_
    rw [held_fill _ hempty]
    simp only [Label.gained, Label.lost]
    omega
  | @connect i x ep onClose c hi hnone _ =>
    have hempty : (w.impls i).handlers .connect = none := by
      by_contra hp
      exact h.connected i hp hnone
    refine tally_setImpl hf hi rfl rfl (m := w.due p) rfl ?_
    show ((w.impls i).setHandler .connect _).held p + _ + 0 = _
    rw [held_fill _ hempty]
    simp only [Label.gained]
    omega
  | waiting hi hempty _ _ =>
    refine tally_setImpl hf hi rfl rfl (m := w.due p) rfl ?_
    rw [held_fill _ hempty]
    simp only [Label.gained, Label.lost]
    omega
  | take hx =>
    refine tally_setImpl hf (h.registered hx) rfl rfl (m := w.due p) rfl ?_
    rw [held_clear hx]
    simp only [Label.gained, Label.lost, hx, Option.any_some]
    omega
  | post hx _ => exact tally_post hf (h.registered hx) hx rfl rfl rfl (due_post p _ _)
  | direct => exact tally_same rfl (fun _ => rfl) (by rw [due_post]; rfl)
  | @shut i ec hi _ _ =>
    obtain ⟨utp, heq, -⟩ := shutUtp_eq w i ec
    rw [heq]
    exact tally_shut hf hi rfl rfl (fun _ => rfl) rfl rfl
  | finish hclosed hfin =>
    obtain ⟨-, c, -, rfl⟩ := finishClose_ok_iff.1 hfin
    exact tally_same rfl (update_field SocketImpl.handlers rfl) rfl
  | data hs | received hs => exact tally_same rfl (update_field SocketImpl.handlers hs.handlers) rfl
  | eof | decrement => exact tally_same rfl (update_field SocketImpl.handlers rfl) rfl
  | accept _ _ hx _ _ _ _ _ => exact tally_post hf (h.registered hx) hx rfl rfl rfl (due_post p _ _)
  | destroy _ hu _ _ => exact tally_shut hf (hf.userdata _ _ hu) rfl rfl (fun _ => rfl) rfl rfl
  | @bind v _ _ =>
    have htotal := total_bind hf v (f := SocketImpl.held p) (held_eq_zero fun _ => rfl)
    have hdue : (w.bind v).due p = w.due p := by
      unfold World.bind
      split <;> rfl
    simp only [Counts, tally, htotal, hdue, Label.gained, Label.lost]
  | moveConstruct =>
    unfold World.moveConstruct
    dsimp only
    split
    · exact tally_same rfl (update_field SocketImpl.handlers rfl) rfl
    · exact tally_same rfl (fun _ => rfl) rfl
  | run hc => exact tally_same rfl (fun _ => rfl) (by rw [due_run hc]; rfl)
  | ran =>
    have hran : w.ran.registeredSockets = w.registeredSockets ∧ w.ran.impls = w.impls := by
      unfold World.ran
      split
      · exact ⟨rfl, rfl⟩
      · dsimp only
        split <;> exact ⟨rfl, rfl⟩
    exact tally_same hran.1 (fun _ => by rw [hran.2]) (due_ran p w)
  | wrote | create | die | number | socket | release | assign | loop => exact tally_same rfl (fun _ => rfl) rfl

end World

end AsioUtp
