/-
Two processes and the connection between them.

A `Link` is two worlds, each with a `utp_socket` that is one end of the same
connection, and what libutp has accepted at one end and not yet delivered at
the other. Of libutp it is assumed that it delivers in order, if at all: what
it hands to `on_read` is a front of what is under way.

The purpose of the library is then one line: what the user of one end gives
to its writes comes out of the reads at the other end first in, first out.
`link_fifo` says that both directions of a connection refine the queue of
`Lib.Fifo`, under every interleaving of the two processes in which neither
starts anything on a closed socket, and where the bytes are that have not come
out yet.
-/
import AsioUtp.Sending
import AsioUtp.Lib.Fifo

namespace AsioUtp

open Machine World

structure Link where
  near : World := {}
  far : World := {}
  /-- What libutp has under way from `near` to `far`, and from `far` to `near`. -/
  wire : List UInt8 := []
  back : List UInt8 := []

namespace Link

inductive Event
  | near (ev : World.Event)
  | far (ev : World.Event)
  deriving Repr, DecidableEq

/-- What `utp_write` has accepted through `u` from `w` to `w'`. -/
def sent (u : Nat) (w w' : World) : List UInt8 := (w'.utp u).written.drop (w.utp u).written.length

/-- What the event delivers at `u`. -/
def delivered (u : Nat) : World.Event → List UInt8
  | .onRead u' buf _ => if u' = u then buf else []
  | _ => []

/-- The connection between `u` at `near` and `u'` at `far`: libutp delivers what is next. -/
def Enabled (u u' : Nat) (l : Link) : Event → Prop
  | .near ev => l.near.Proper ev ∧ delivered u ev <+: l.back
  | .far ev => l.far.Proper ev ∧ delivered u' ev <+: l.wire

instance (u u' : Nat) (l : Link) : (ev : Event) → Decidable (l.Enabled u u' ev)
  | .near _ => inferInstanceAs (Decidable (_ ∧ _))
  | .far _ => inferInstanceAs (Decidable (_ ∧ _))

def afterNear (u : Nat) (l : Link) (ev : World.Event) (w : World) : Link :=
  { l with near := w, wire := l.wire ++ sent u l.near w, back := l.back.drop (delivered u ev).length }

def afterFar (u' : Nat) (l : Link) (ev : World.Event) (w : World) : Link :=
  { l with far := w, back := l.back ++ sent u' l.far w, wire := l.wire.drop (delivered u' ev).length }

def step (u u' : Nat) (l : Link) : Event → Except Fault Link
  | .near ev => do return l.afterNear u ev (← l.near.step ev)
  | .far ev => do return l.afterFar u' ev (← l.far.step ev)

/-- What the two users exchange from `near` to `far`, as events of a queue: the writes on `i` give to it, the reads
of `j` take from it. -/
def exchanged (i j : Nat) (l : Link) (ev : Event) (l' : Link) : List (Fifo.Event UInt8) :=
  match ev with
  | .near ev => [.give (l.near.givenBy i ev)]
  | .far _ => [.take (handed j (newly l.far l'.far))]

/-- And from `far` to `near`. -/
def returned (i j : Nat) (l : Link) (ev : Event) (l' : Link) : List (Fifo.Event UInt8) :=
  match ev with
  | .near _ => [.take (handed i (newly l.near l'.near))]
  | .far ev => [.give (l.far.givenBy j ev)]

/-! ## The other direction -/

def swap (l : Link) : Link := { near := l.far, far := l.near, wire := l.back, back := l.wire }

def Event.swap : Event → Event
  | .near ev => .far ev
  | .far ev => .near ev

variable {u u' i j : Nat}

theorem enabled_swap (l : Link) (ev : Event) : l.swap.Enabled u' u ev.swap ↔ l.Enabled u u' ev := by
  cases ev <;> rfl

theorem step_swap {l l' : Link} {ev : Event} (h : l.step u u' ev = .ok l') :
    l.swap.step u' u ev.swap = .ok l'.swap := by
  cases ev <;>
  · simp only [step, Except.bind_ok_iff, Except.pure_ok_iff] at h
    obtain ⟨w, hs, rfl⟩ := h
    simp only [Event.swap, step, swap, hs, Except.ok_bind]
    rfl

theorem run_swap {l l' : Link} {evs : List Event} (h : Run (Enabled u u') (step u u') l evs l') :
    Run (Enabled u' u) (step u' u) l.swap (evs.map Event.swap) l'.swap := by
  induction h with
  | nil => exact .nil
  | cons hen hs _ ih => exact .cons ((enabled_swap _ _).2 hen) (step_swap hs) ih

theorem answers_swap {l l' : Link} {evs : List Event} (h : Run (Enabled u u') (step u u') l evs l') :
    answers (step u' u) (exchanged j i) l.swap (evs.map Event.swap) = answers (step u u') (returned i j) l evs := by
  induction h with
  | nil => rfl
  | @cons l ev l₁ evs l₂ _ hs _ ih =>
    have hevent : exchanged j i l.swap ev.swap l₁.swap = returned i j l ev l₁ := by cases ev <;> rfl
    rw [List.map_cons, answers, answers, step_swap hs, hs]
    dsimp only
    rw [ih, hevent]

/-! ## What every step keeps -/

/-- Both processes are in order. -/
def Orderly (l : Link) : Prop := l.near.Orderly ∧ l.far.Orderly

theorem Orderly.step {l l' : Link} {ev : Event} (h : l.Orderly) (hen : l.Enabled u u' ev)
    (hs : l.step u u' ev = .ok l') : l'.Orderly := by
  cases ev <;>
  · simp only [Link.step, Except.bind_ok_iff, Except.pure_ok_iff] at hs
    obtain ⟨w, hs, rfl⟩ := hs
    first
    | exact ⟨h.1.step hen.1 hs, h.2⟩
    | exact ⟨h.1, h.2.step hen.1 hs⟩

/-- `u` is, or will be, the `utp_socket` of `i`, and no other is. -/
def Owns (w : World) (i u : Nat) : Prop :=
  (∀ k, (w.utp u).userdata = some k → k = i) ∧ ∀ x, (w.utp x).userdata = some i → x = u

theorem owns_of_userdata {w : World} (h : w.Orderly) (hu : (w.utp u).userdata = some i) : Owns w i u :=
  ⟨fun k hk => by rw [hu] at hk; exact (Option.some.inj hk).symm, fun x hx => h.tied.once x u i hx hu⟩

/-- What is attached stays so; so this goes back over every event. -/
theorem Owns.back {w w' : World} {ev : World.Event} (h : w.Orderly) (hen : w.Enabled ev) (hs : w.step ev = .ok w')
    (ho : Owns w' i u) : Owns w i u := by
  have hkept : ∀ x k, (w.utp x).userdata = some k → (w'.utp x).userdata = some k := fun x k hx =>
    ((step_path h.regular.sound hen hs).persists (h.tied.made x k hx) hx).2
  exact ⟨fun k hk => ho.1 k (hkept u k hk), fun x hx => ho.2 x (hkept x i hx)⟩

/-- The two ends belong to `i` and `j`. -/
def Paired (i j u u' : Nat) (l : Link) : Prop := Owns l.near i u ∧ Owns l.far j u'

theorem Paired.back {l l' : Link} {ev : Event} (h : l.Orderly) (hen : l.Enabled u u' ev)
    (hs : l.step u u' ev = .ok l') (hp : Paired i j u u' l') : Paired i j u u' l := by
  cases ev <;>
  · simp only [step, Except.bind_ok_iff, Except.pure_ok_iff] at hs
    obtain ⟨w, hs, rfl⟩ := hs
    first
    | exact ⟨hp.1.back h.1 hen.1.1 hs, hp.2⟩
    | exact ⟨hp.1, hp.2.back h.2 hen.1.1 hs⟩

/-- Where the bytes from `near` to `far` are, with what has happened at both ends. -/
structure Carries (i j u u' : Nat) (l : Link) (t t' : Traffic) : Prop where
  sending : Sending i l.near t
  receiving : Receiving j l.far t'
  /-- What libutp has accepted at `u` has arrived at `u'` or is under way. -/
  carried : (l.near.utp u).written = t'.arrived ++ l.wire
  unattached : (l.far.utp u').userdata = none → t'.arrived = []

/-- What the reads have handed over is a front of what the writes were given. -/
theorem Carries.ordered {l : Link} {t t' : Traffic} (h : Carries i j u u' l t t') (hl : l.Orderly)
    (hp : Paired i j u u' l) : t'.read <+: t.given := by
  have hread : t'.read <+: (l.near.utp u).written := by
    rw [h.carried]
    exact List.prefix_append_of_prefix ⟨_, h.receiving.stream⟩
  cases hu : (l.near.utp u).userdata with
  | none =>
    rw [hl.1.unwritten u hu] at hread
    rw [List.prefix_nil.1 hread]
    exact List.nil_prefix
  | some k =>
    obtain ⟨rest, hrest, -⟩ := h.sending.stands u (hp.1.1 k hu ▸ hu)
    exact hread.trans ⟨rest, hrest⟩

theorem Carries.near {l : Link} {w : World} {t t' : Traffic} {ev : World.Event} (h : Carries i j u u' l t t')
    (hl : l.Orderly) (hen : l.Enabled u u' (.near ev)) (hs : l.near.step ev = .ok w) :
    Carries i j u u' (l.afterNear u ev w) (note i l.near ev w t) t' where
  sending := h.sending.step hl.1 hen.1 hs
  receiving := h.receiving
  carried := by
    obtain ⟨new, hnew⟩ := hl.1.written hen.1 hs u
    have hsent : sent u l.near w = new := by rw [sent, ← hnew, List.drop_left]
    show (w.utp u).written = t'.arrived ++ (l.wire ++ sent u l.near w)
    rw [hsent, ← List.append_assoc, ← h.carried, hnew]
  unattached := h.unattached

/-- What libutp delivers at `u'` is what arrives for `j`. -/
theorem arrivedBy_eq {w w' : World} {ev : World.Event} (ho : Owns w j u') (hs : w.step ev = .ok w') :
    w.arrivedBy j ev = delivered u' ev := by
  cases ev with
  | onRead x buf ecs =>
    by_cases hx : x = u'
    · subst hx
      cases hd : (w.utp x).userdata with
      | none =>
        simp only [World.step, callbackOnRead, hd] at hs
        cases hs
      | some k =>
        have hk : k = j := ho.1 k hd
        simp [arrivedBy, delivered, hd, hk]
    · have hd : (w.utp x).userdata ≠ some j := fun h => hx (ho.2 x h)
      simp [arrivedBy, delivered, hd, hx]
  | _ => rfl

theorem Carries.far {l : Link} {w : World} {t t' : Traffic} {ev : World.Event} (h : Carries i j u u' l t t')
    (hl : l.Orderly) (ho : Owns l.far j u') (hen : l.Enabled u u' (.far ev)) (hs : l.far.step ev = .ok w) :
    Carries i j u u' (l.afterFar u' ev w) t (note j l.far ev w t') where
  sending := h.sending
  receiving := h.receiving.step hen.1.1 hs
  carried := by
    obtain ⟨rest, hrest⟩ := hen.2
    show (l.near.utp u).written = (t'.arrived ++ l.far.arrivedBy j ev) ++ l.wire.drop (delivered u' ev).length
    rw [arrivedBy_eq ho hs, h.carried, ← hrest, List.drop_left, List.append_assoc]
  unattached hnone := by
    have hnone₀ : (l.far.utp u').userdata = none := by
      cases hd : (l.far.utp u').userdata with
      | none => rfl
      | some k =>
        have hkept := ((step_path hl.2.regular.sound hen.1.1 hs).persists (hl.2.tied.made u' k hd) hd).2
        exact hkept.symm.trans hnone
    have hby : l.far.arrivedBy j ev = [] := by
      cases ev with
      | onRead x buf ecs =>
        refine if_neg fun hx => ?_
        rw [ho.2 x hx, hnone₀] at hx
        cases hx
      | _ => rfl
    show t'.arrived ++ l.far.arrivedBy j ev = []
    rw [h.unattached hnone₀, hby]
    rfl

/-- The link with the content of the queue: what the writes were given and the reads have not handed over. -/
def Holds (i j u u' : Nat) (l : Link) (q : List UInt8) : Prop :=
  ∃ t t', Carries i j u u' l t t' ∧ t'.read ++ q = t.given

theorem holds_init : Holds i j u u' {} [] :=
  ⟨{}, {}, ⟨sending_init i, receiving_init j, rfl, fun _ => rfl⟩, rfl⟩

/-- Every step is one of the queue. -/
theorem Holds.step {l l' : Link} {q : List UInt8} {ev : Event} (hl : l.Orderly) (hp' : Paired i j u u' l')
    (h : Holds i j u u' l q) (hen : l.Enabled u u' ev) (hs : l.step u u' ev = .ok l') :
    ∃ q', Run Fifo.Enabled Fifo.step q (exchanged i j l ev l') q' ∧ Holds i j u u' l' q' := by
  have hl' := hl.step hen hs
  have hp := hp'.back hl hen hs
  obtain ⟨t, t', hc, hq⟩ := h
  cases ev with
  | near ev =>
    simp only [Link.step, Except.bind_ok_iff, Except.pure_ok_iff] at hs
    obtain ⟨w, hs, rfl⟩ := hs
    refine ⟨q ++ l.near.givenBy i ev, .cons trivial rfl .nil, _, _, hc.near hl hen hs, ?_⟩
    show t'.read ++ (q ++ l.near.givenBy i ev) = t.given ++ l.near.givenBy i ev
    rw [← List.append_assoc, hq]
  | far ev =>
    simp only [Link.step, Except.bind_ok_iff, Except.pure_ok_iff] at hs
    obtain ⟨w, hs, rfl⟩ := hs
    have hc' := hc.far hl hp.2 hen hs
    -- What is handed over now stands at the front of the queue.
    have hfront : handed j (newly l.far w) <+: q := by
      have hordered : t'.read ++ handed j (newly l.far w) <+: t.given := hc'.ordered hl' hp'
      rw [← hq] at hordered
      exact (List.prefix_append_right_inj _).1 hordered
    refine ⟨q.drop (handed j (newly l.far w)).length, .cons hfront rfl .nil, _, _, hc', ?_⟩
    obtain ⟨rest, rfl⟩ := hfront
    show (t'.read ++ handed j (newly l.far w)) ++ _ = t.given
    rw [List.drop_left, List.append_assoc, hq]

/-- One direction. -/
theorem run_fifo {l : Link} {evs : List Event} (h : Run (Enabled u u') (step u u') {} evs l)
    (hi : (l.near.utp u).userdata = some i) (hj : (l.far.utp u').userdata = some j) :
    ∃ q, Run Fifo.Enabled Fifo.step [] (answers (step u u') (exchanged i j) {} evs) q ∧
      Fifo.taken (answers (step u u') (exchanged i j) {} evs) ++ q =
        Fifo.given (answers (step u u') (exchanged i j) {} evs) ∧
      ((l.near.impls i).closed = false →
        q = unread (l.far.impls j).rxBufferQueue ++ l.wire ++ unsent i l.near) := by
  have hinit : Orderly {} := ⟨orderly_init, orderly_init⟩
  have hl : l.Orderly := h.invariant Orderly (fun _ _ _ hl hen hs => hl.step hen hs) hinit
  have hp : Paired i j u u' l := ⟨owns_of_userdata hl.1 hi, owns_of_userdata hl.2 hj⟩
  obtain ⟨q, hrun, t, t', hc, hq⟩ := h.simulated Orderly (Paired i j u u') (fun _ _ _ hl hen hs => hl.step hen hs)
    (fun _ _ _ hl hen hs hp => hp.back hl hen hs) (Holds i j u u')
    (fun _ _ _ _ hl hp' hq hen hs => hq.step hl hp' hen hs) hinit hp holds_init
  refine ⟨q, hrun, Fifo.run_content hrun, fun hopen => ?_⟩
  obtain ⟨rest, hrest, -, hstands⟩ := hc.sending.stands u hi
  obtain ⟨rfl, -⟩ := hstands hopen
  rw [← hrest, hc.carried, ← hc.receiving.stream, List.append_assoc, List.append_assoc] at hq
  rw [List.append_cancel_left hq, List.append_assoc]

/-- **A connection is two queues.** Two processes run side by side, in any order, each in a way that starts nothing
on a closed socket; libutp delivers at `u'` what it accepted at `u`, in order and maybe not all of it, and the other
way. Then what the users exchange through the sockets `u` and `u'` belong to, each way, is a run of a queue: what the
reads at one end hand over is what the writes at the other were given, first in, first out, so it is a front of that
over the whole run. As long as the writing end is open, what has not been handed over is queued at the reading end,
under way, or left in the write that waits. -/
theorem link_fifo {l : Link} {evs : List Event} (h : Run (Enabled u u') (step u u') {} evs l)
    (hi : (l.near.utp u).userdata = some i) (hj : (l.far.utp u').userdata = some j) :
    (∃ q, Run Fifo.Enabled Fifo.step [] (answers (step u u') (exchanged i j) {} evs) q ∧
      Fifo.taken (answers (step u u') (exchanged i j) {} evs) ++ q =
        Fifo.given (answers (step u u') (exchanged i j) {} evs) ∧
      ((l.near.impls i).closed = false →
        q = unread (l.far.impls j).rxBufferQueue ++ l.wire ++ unsent i l.near)) ∧
    ∃ q, Run Fifo.Enabled Fifo.step [] (answers (step u u') (returned i j) {} evs) q ∧
      Fifo.taken (answers (step u u') (returned i j) {} evs) ++ q =
        Fifo.given (answers (step u u') (returned i j) {} evs) ∧
      ((l.far.impls j).closed = false →
        q = unread (l.near.impls i).rxBufferQueue ++ l.back ++ unsent j l.far) := by
  refine ⟨run_fifo h hi hj, ?_⟩
  rw [← answers_swap h]
  exact run_fifo (run_swap h) hj hi

/-- The near end connects and writes three bytes, of which libutp accepts two; the far end accepts, is delivered both
and reads one, and answers with a byte that is still under way. -/
theorem link_fifo_both_ways :
    ∃ (l : Link) (q q' : List UInt8), Run (Enabled 0 0) (step 0 0) {} [.far .socket, .far (.bind 0),
        .far (.asyncAccept 0), .near .socket, .near (.bind 0), .near (.asyncConnect 0 default [] []),
        .far (.incoming default [] []), .near (.asyncWriteSome 0 [[1, 2, 3]] [{ accepted := 1 }]),
        .near (.stateChange 0 .writable [{ accepted := 1 }]), .far (.onRead 0 [1, 2] []),
        .far (.asyncReadSome 0 [[0]]), .far (.asyncWriteSome 0 [[9]] [{ accepted := 1 }])] l ∧
      Run Fifo.Enabled Fifo.step [] [.take [], .take [], .take [], .give [], .give [], .give [], .take [],
        .give [1, 2, 3], .give [], .take [], .take [1], .take []] q ∧ q = [2, 3] ∧
      Run Fifo.Enabled Fifo.step [] [.give [], .give [], .give [], .take [], .take [], .take [], .give [],
        .take [], .take [], .give [], .give [], .give [9]] q' ∧ q' = [9] := by
  obtain ⟨l, hrun, hi, hj, hnear, hfar, hq, hq'⟩ := exists_run (Enabled 0 0) (step 0 0) {}
    [.far .socket, .far (.bind 0), .far (.asyncAccept 0), .near .socket, .near (.bind 0),
      .near (.asyncConnect 0 default [] []), .far (.incoming default [] []),
      .near (.asyncWriteSome 0 [[1, 2, 3]] [{ accepted := 1 }]),
      .near (.stateChange 0 .writable [{ accepted := 1 }]), .far (.onRead 0 [1, 2] []),
      .far (.asyncReadSome 0 [[0]]), .far (.asyncWriteSome 0 [[9]] [{ accepted := 1 }])]
    (fun l => (l.near.utp 0).userdata = some 0 ∧ (l.far.utp 0).userdata = some 0 ∧
      (l.near.impls 0).closed = false ∧ (l.far.impls 0).closed = false ∧
      unread (l.far.impls 0).rxBufferQueue ++ l.wire ++ unsent 0 l.near = [2, 3] ∧
      unread (l.near.impls 0).rxBufferQueue ++ l.back ++ unsent 0 l.far = [9]) (by decide)
  obtain ⟨⟨q, hfifo, -, hopen⟩, q', hfifo', -, hopen'⟩ := link_fifo hrun hi hj
  exact ⟨l, q, q', hrun, hfifo, (hopen hnear).trans hq, hfifo', (hopen' hfar).trans hq'⟩

end Link

end AsioUtp
