/-
The bytes of a connection over whole runs.

`Traffic` records what has happened to the bytes of one `socket_impl` in a
run: what its writes were given and have reported, what libutp has received
for it, and what reads have handed to the user. This module is about the
receiving side: in every run of the whole machine, what reads have handed
over, then what is queued, is what arrived (`read_conserved`).
-/
import AsioUtp.Inventory
import AsioUtp.Lib.History

namespace AsioUtp

/-- A write on `i` that completed without an error. -/
def Completion.WriteOf (i : Nat) (c : Completion) : Prop :=
  c.impl = some i ∧ c.slot = .send ∧ c.ec = .success

instance (i : Nat) (c : Completion) : Decidable (c.WriteOf i) := inferInstanceAs (Decidable (_ ∧ _))

structure Traffic where
  /-- The bytes of the writes that were made on an attached socket. -/
  given : List UInt8 := []
  /-- How many bytes the completed ones have reported. -/
  reported : Nat := 0
  /-- The bytes libutp has received, and those reads have handed to the user. -/
  arrived : List UInt8 := []
  read : List UInt8 := []
  deriving Repr, DecidableEq

namespace World

open Machine Relation

/-! ## What an event adds -/

/-- The completions that have been posted since. -/
def newly (w w' : World) : List Completion := w'.posted.drop w.posted.length

theorem newly_of_append {w w' : World} {cs : List Completion} (h : w'.posted = w.posted ++ cs) : newly w w' = cs := by
  rw [newly, h, List.drop_left]

@[simp] theorem newly_setImpl (w : World) (j : Nat) (s : SocketImpl) : newly w (w.setImpl j s) = [] := List.drop_length

theorem newly_run (w : World) (c : Completion) : newly w (w.run c) = [] :=
  List.drop_eq_nil_of_le List.erase_sublist.length_le

def givenBy (i : Nat) (w : World) : Event → List UInt8
  | .asyncWriteSome v bufs _ =>
    if (w.sockets v).impl = some i ∧ (w.impls i).utpSocket ≠ none then bufs.flatten else []
  | _ => []

def arrivedBy (i : Nat) (w : World) : Event → List UInt8
  | .onRead u buf _ => if (w.utp u).userdata = some i then buf else []
  | _ => []

/-- How many bytes the completions report as written on `i`. -/
def reportedIn (i : Nat) (cs : List Completion) : Nat := (cs.map fun c => if c.WriteOf i then c.size else 0).sum

def note (i : Nat) (w : World) (ev : Event) (w' : World) (h : Traffic) : Traffic where
  given := h.given ++ w.givenBy i ev
  reported := h.reported + reportedIn i (newly w w')
  arrived := h.arrived ++ w.arrivedBy i ev
  read := h.read ++ handed i (newly w w')

/-- The traffic of socket `i` after the events `evs`. -/
def traffic (i : Nat) (evs : List Event) : Traffic := record step (note i) {} {} evs

/-! ## The queue -/

variable {i : Nat}

theorem bind_impls (w : World) (v : Nat) : (w.bind v).impls = w.impls ∨
    (w.bind v).impls = Function.update w.impls w.registeredSockets.length { owner := some v } := by
  unfold World.bind
  split
  · exact .inl rfl
  · exact .inr rfl

theorem moveConstruct_impls (w : World) (v : Nat) : (w.moveConstruct v).impls = w.impls ∨
    ∃ j, (w.moveConstruct v).impls = Function.update w.impls j { w.impls j with owner := some w.made } := by
  unfold World.moveConstruct
  dsimp only
  split
  · exact .inr ⟨_, rfl⟩
  · exact .inl rfl

theorem ran_impls (w : World) : w.ran.impls = w.impls ∧ w.ran.utp = w.utp ∧ w.ran.created = w.created := by
  unfold World.ran
  split
  · exact ⟨rfl, rfl, rfl⟩
  · dsimp only
    split <;> exact ⟨rfl, rfl, rfl⟩

/-- A relation every `socket_impl` has to itself it has to what an update leaves, if the updated one has. -/
theorem update_rel {impls impls' : Nat → SocketImpl} {j : Nat} {s : SocketImpl}
    (R : SocketImpl → SocketImpl → Prop) (hrefl : ∀ s, R s s) (himpl : impls' = Function.update impls j s)
    (hs : j = i → R (impls i) s) : R (impls i) (impls' i) := by
  subst himpl
  by_cases hji : j = i
  · subst hji
    rw [Function.update_self]
    exact hs rfl
  · rw [Function.update_of_ne (Ne.symm hji)]
    exact hrefl _

/-- Only `received i` changes what is queued for `i`. -/
theorem Move.queue {w w' : World} {l : Label} (hm : Move w l w') (hw : Formed w) (hl : l ≠ .received i)
    (hfresh : i ∉ w.registeredSockets → (w.impls i).rxBufferQueue = []) :
    (w'.impls i).rxBufferQueue = (w.impls i).rxBufferQueue := by
  cases hm with
  | @shut j ec _ _ _ =>
    obtain ⟨utp, heq, -⟩ := shutUtp_eq w j ec
    rw [heq]
    exact update_field SocketImpl.rxBufferQueue (by rfl) i
  | finish _ hf =>
    obtain ⟨-, c, -, rfl⟩ := finishClose_ok_iff.1 hf
    exact update_field SocketImpl.rxBufferQueue (by rfl) i
  | data hs => exact update_field SocketImpl.rxBufferQueue hs.rxBufferQueue i
  | @received j s hs =>
    have hij : i ≠ j := fun h => hl (by rw [h])
    simp [setImpl, hij]
  | @bind v _ _ =>
    rcases bind_impls w v with himpl | himpl
    · rw [himpl]
    · refine update_rel (fun s s' => s'.rxBufferQueue = s.rxBufferQueue) (fun _ => rfl) himpl fun hi => ?_
      subst hi
      exact (hfresh hw.unregistered).symm
  | @moveConstruct v _ =>
    rcases moveConstruct_impls w v with himpl | ⟨j, himpl⟩
    · rw [himpl]
    · rw [himpl]
      exact update_field SocketImpl.rxBufferQueue (by rfl) i
  | ran => rw [(ran_impls w).1]
  | setup | connect | waiting | take | post | eof | accept | destroy | decrement =>
    exact update_field SocketImpl.rxBufferQueue (by rfl) i
  | direct | wrote | create | die | number | socket | release | assign | run | loop => rfl

theorem Path.queue {ok : Label → Prop} {w w' : World} (h : Path ok w w') (hw : Formed w)
    (hok : ∀ l, ok l → l ≠ .received i) (hfresh : i ∉ w.registeredSockets → (w.impls i).rxBufferQueue = []) :
    (w'.impls i).rxBufferQueue = (w.impls i).rxBufferQueue := by
  suffices hall : Formed w' ∧ (w'.impls i).rxBufferQueue = (w.impls i).rxBufferQueue ∧
      (i ∉ w'.registeredSockets → (w'.impls i).rxBufferQueue = []) from hall.2.1
  induction h with
  | refl => exact ⟨hw, rfl, hfresh⟩
  | tail _ hm ih =>
    obtain ⟨hformed, hsame, hblank⟩ := ih
    obtain ⟨l, hl, hm⟩ := hm
    have hstep := hm.queue hformed (hok l hl) hblank
    refine ⟨formed_move hformed hm, hstep.trans hsame, fun hi => ?_⟩
    rw [hstep]
    exact hblank fun h => hi (hm.registered_subset h)

/-- Only reads on `i`, and what libutp receives for it, change what is queued. -/
def ReceivesOn (i : Nat) (w : World) : Event → Prop
  | .asyncReadSome v _ => (w.sockets v).impl = some i
  | .onRead u _ _ => (w.utp u).userdata = some i
  | _ => False

instance (i : Nat) (w : World) : (ev : Event) → Decidable (w.ReceivesOn i ev)
  | .asyncReadSome _ _ => inferInstanceAs (Decidable (_ = _))
  | .onRead _ _ _ => inferInstanceAs (Decidable (_ = _))
  | .socket | .bind _ | .moveConstruct _ | .moveAssign _ _ | .close _ | .asyncConnect _ _ _ _ | .asyncAccept _
  | .asyncWriteSome _ _ _ | .sendto _ | .stateChange _ _ _ | .incoming _ _ _ | .run _ | .ran | .context _ =>
    inferInstanceAs (Decidable False)

theorem step_queue {w w' : World} {ev : Event} (hw : Sound w) (hen : w.Enabled ev) (hev : ¬ w.ReceivesOn i ev)
    (hs : w.step ev = .ok w') (hfresh : i ∉ w.registeredSockets → (w.impls i).rxBufferQueue = []) :
    (w'.impls i).rxBufferQueue = (w.impls i).rxBufferQueue := by
  refine (step_path hw hen hs).queue hw.formed ?_ hfresh
  rintro l hl rfl
  cases ev with
  | asyncReadSome v bufs =>
    simp only [Permits, Label.Refuses, Label.ReadsOn, reduceCtorEq, Label.received.injEq, false_or, or_false] at hl
    obtain ⟨j, hj, rfl⟩ := hl
    exact hev hj
  | onRead u buf ecs =>
    simp only [Permits, Label.Closing, reduceCtorEq, Label.received.injEq, false_or, or_false] at hl
    obtain ⟨j, hj, rfl⟩ := hl
    exact hev hj
  | stateChange u state rs => cases state <;> simp [Permits, Label.Closing, Label.WritesTo] at hl
  | _ => simp [Permits, Label.Closing, Label.Refuses, Label.WritesTo] at hl

/-! ## What is posted on the way -/

/-- Completions that carry nothing. -/
def Silent (cs : List Completion) : Prop := ∀ c ∈ cs, c.size = 0 ∧ c.data = []

theorem Silent.handed {cs : List Completion} (h : Silent cs) : handed i cs = [] :=
  handed_eq_nil_iff.2 fun c hc _ => (h c hc).2

/-- What closing posts carries nothing. -/
theorem Path.silent {w w' : World} (h : Path Label.Closing w w') :
    ∃ cs, w'.posted = w.posted ++ cs ∧ Silent cs := by
  induction h with
  | refl => exact ⟨[], (List.append_nil _).symm, by simp [Silent]⟩
  | @tail s s' _ hm ih =>
    obtain ⟨cs, hcs, hsilent⟩ := ih
    obtain ⟨l, hl, hm⟩ := hm
    cases hm with
    | @shut j ec _ _ _ =>
      obtain ⟨utp, heq, -⟩ := shutUtp_eq s j ec
      refine ⟨cs ++ closings (s.impls j) j ec, by rw [heq, ← List.append_assoc, ← hcs], fun c hc => ?_⟩
      exact (List.mem_append.1 hc).elim (hsilent c) (closings_empty c)
    | finish _ hf =>
      obtain ⟨-, c, -, rfl⟩ := finishClose_ok_iff.1 hf
      exact ⟨cs, hcs, hsilent⟩
    | _ => exact hl.elim

/-- `on_receive` gives a chunk to the read that waits, or queues it, also where `utp_read_drained` closes sockets
on the way. -/
theorem onReceive_stream {w w' : World} {buf : List UInt8} {ecs : List ErrorCode} (hw : Formed w) (h : Waits i w)
    (hi : i ∈ w.registeredSockets) (hs : w.onReceive i buf ecs = .ok w') :
    handed i (newly w w') ++ unread (w'.impls i).rxBufferQueue = unread (w.impls i).rxBufferQueue ++ buf := by
  unfold onReceive at hs
  dsimp only at hs
  split at hs
  · cases hs
    simp [handed, unread, Buf.unread]
  next x hx =>
  simp only [Except.bind_ok_iff, Except.require_ok_iff] at hs
  obtain ⟨-, hqueue, w₁, hdrained, hpost⟩ := hs
  obtain ⟨-, hbufs⟩ := h (by rw [Pending, hx]; simp)
  obtain ⟨-, hcut⟩ := fill_spec buf hqueue hbufs
  -- The sends of `utp_read_drained` may close sockets; they leave the queue alone and post nothing that carries data.
  have hpath : Path Label.Closing (w.setImpl i (fill (w.impls i) buf)) w₁ := by
    unfold drainedIf utpReadDrained at hdrained
    split at hdrained
    · split at hdrained
      · cases hdrained
      · simp only [Except.bind_ok_iff] at hdrained
        obtain ⟨-, -, hsends⟩ := hdrained
        exact sends_path (fun _ => id) hsends
    · cases hdrained
      exact .refl
  have hq₁ : (w₁.impls i).rxBufferQueue = (fill (w.impls i) buf).rxBufferQueue := by
    refine (hpath.queue (i := i) ?_ ?_ fun hi' => absurd hi hi').trans (by simp [setImpl])
    · exact formed_move hw (.received (.rx _ _ _))
    · rintro l hl rfl
      exact hl
  obtain ⟨cs, hcs, hsilent⟩ := hpath.silent
  obtain ⟨y, -, rfl⟩ := postOp_ok hpost
  have hposted : ∀ c,
      ((w₁.setImpl i ((w₁.impls i).setHandler .recv none)).post c).posted = w.posted ++ (cs ++ [c]) := by
    intro c
    rw [← List.append_assoc]
    exact congrArg (· ++ [c]) hcs
  rw [newly_of_append (hposted _), handed_append, hsilent.handed, hqueue]
  simpa [post, SocketImpl.setHandler, handed, Completion.ReadOf, unread, hq₁] using hcut

/-- Only reads on `i`, and what libutp receives for it, hand over bytes of `i`. -/
theorem Cause.data {w : World} {ev : Event} {c : Completion} (h : Cause w ev c) (hev : ¬ w.ReceivesOn i ev)
    (hc : c.ReadOf i) : c.data = [] := by
  cases h with
  | @read v j n bufs hj _ _ =>
    obtain ⟨hji, -⟩ := hc
    cases hji
    exact absurd hj hev
  | @received u j n x buf ecs hj _ _ =>
    obtain ⟨hji, -⟩ := hc
    cases hji
    exact absurd hj hev
  | _ => rfl

/-- **What one event does to the stream**: what it hands over, then what is queued after it, is what was queued
before, then what arrives with it. -/
theorem step_stream {w w' : World} {ev : Event} (hw : Regular w) (hr : Reading w) (hen : w.Enabled ev)
    (hs : w.step ev = .ok w') (hfresh : i ∉ w.registeredSockets → (w.impls i).rxBufferQueue = []) :
    handed i (newly w w') ++ unread (w'.impls i).rxBufferQueue =
      unread (w.impls i).rxBufferQueue ++ w.arrivedBy i ev := by
  by_cases hev : w.ReceivesOn i ev
  · cases ev with
    | asyncReadSome v bufs =>
      have hstep : w.step (.asyncReadSome v bufs) = streamStep i w (.read bufs) := by
        have hv : (w.numberOp.sockets v).impl = some i := hev
        simp only [step, asyncReadSome, hv]
        rfl
      have hidle : Offered i w (.read bufs) := not_not.1 (hen.2 i hev)
      obtain ⟨w'', cs, heq, htr, -⟩ := streamStep_serves (hr i) hidle (by simp)
      rw [← hstep, hs] at heq
      cases heq
      rw [newly_of_append htr.posted, htr.stream]
      rfl
    | onRead u buf ecs =>
      have hu : (w.utp u).userdata = some i := hev
      simp only [step, callbackOnRead, hu] at hs
      have harrived : w.arrivedBy i (.onRead u buf ecs) = buf := if_pos hu
      rw [harrived]
      exact onReceive_stream hw.sound.formed (hr i) (hw.sound.formed.userdata u i hu) hs
    | _ => exact hev.elim
  · have hnone : w.arrivedBy i ev = [] := by
      cases ev with
      | onRead u buf ecs => exact if_neg hev
      | _ => rfl
    have hhanded : handed i (newly w w') = [] := by
      rcases step_posts hw hr hen hs with ⟨c, rfl, rfl⟩ | ⟨cs, hcs, hall⟩
      · rw [newly_run]
        rfl
      · rw [newly_of_append hcs]
        exact handed_eq_nil_iff.2 fun c hc => (hall c hc).data hev
    rw [hhanded, hnone, step_queue hw.sound hen hev hs hfresh, List.nil_append, List.append_nil]

/-! ## Runs -/

/-- What a run keeps on the receiving side. -/
structure Receiving (i : Nat) (w : World) (h : Traffic) : Prop where
  regular : Regular w
  reading : Reading w
  blank : i ∉ w.registeredSockets → (w.impls i).rxBufferQueue = []
  stream : h.read ++ unread (w.impls i).rxBufferQueue = h.arrived

theorem Receiving.step {w w' : World} {h : Traffic} {ev : Event} (hinv : Receiving i w h) (hen : w.Enabled ev)
    (hs : w.step ev = .ok w') : Receiving i w' (note i w ev w' h) where
  regular := (step_path hinv.regular.sound hen hs).regular hinv.regular
  reading := reading_step hinv.regular.sound hinv.reading hen hs
  blank hi := by
    have hi₀ : i ∉ w.registeredSockets := fun h => hi ((step_path hinv.regular.sound hen hs).registered h)
    have hev : ¬ w.ReceivesOn i ev := by
      intro hev
      cases ev with
      | asyncReadSome v bufs => exact hi₀ (hinv.regular.sound.formed.sockets v i hev).1
      | onRead u buf ecs => exact hi₀ (hinv.regular.sound.formed.userdata u i hev)
      | _ => exact hev
    rw [step_queue hinv.regular.sound hen hev hs hinv.blank]
    exact hinv.blank hi₀
  stream := by
    show (h.read ++ handed i (newly w w')) ++ unread (w'.impls i).rxBufferQueue = h.arrived ++ w.arrivedBy i ev
    rw [List.append_assoc, step_stream hinv.regular hinv.reading hen hs hinv.blank, ← List.append_assoc, hinv.stream]

theorem receiving_init (i : Nat) : Receiving i {} {} :=
  ⟨reachable_regular .init, reachable_reading .init, fun _ => rfl, rfl⟩

/-- **No byte is lost, duplicated or moved between libutp and the reads.** In every run, whatever else happens to the
socket and to the others, what reads of socket `i` have handed to the user, then what is queued, is what libutp has
received for it; and while a read waits, everything that was received has been handed over. -/
theorem read_conserved {w : World} {evs : List Event} (h : Run Enabled step {} evs w) (i : Nat) :
    (traffic i evs).read ++ unread (w.impls i).rxBufferQueue = (traffic i evs).arrived ∧
      (w.Pending i .recv → (traffic i evs).read = (traffic i evs).arrived) := by
  have hinv : Receiving i w (traffic i evs) := by
    refine h.recorded (Receiving i) ?_ (receiving_init i)
    intro w h ev w' hinv hen hs
    exact hinv.step hen hs
  refine ⟨hinv.stream, fun hp => ?_⟩
  obtain ⟨hqueue, -⟩ := hinv.reading i hp
  rw [← hinv.stream, hqueue]
  simp [unread]

/-- A chunk is queued and read in two parts; a read that then waits is given the front of the next chunk, while a send
of another socket's connect fails and closes the socket: one byte is left. -/
theorem read_conserved_split :
    ∃ w, Run Enabled step {} [.socket, .bind 0, .asyncConnect 0 default [] [], .onRead 0 [1, 2, 3] [],
        .asyncReadSome 0 [[0], [0]], .asyncReadSome 0 [[0, 0]], .asyncReadSome 0 [[0, 0]], .onRead 0 [4, 5, 6] [],
        .socket, .bind 1, .asyncConnect 1 default [.other 5] []] w ∧
      (w.impls 0).closed = true ∧
      (traffic 0 [.socket, .bind 0, .asyncConnect 0 default [] [], .onRead 0 [1, 2, 3] [],
        .asyncReadSome 0 [[0], [0]], .asyncReadSome 0 [[0, 0]], .asyncReadSome 0 [[0, 0]], .onRead 0 [4, 5, 6] [],
        .socket, .bind 1, .asyncConnect 1 default [.other 5] []]).read ++ [6] = [1, 2, 3, 4, 5, 6] := by
  obtain ⟨w, hrun, hclosed, hqueue⟩ := exists_run Enabled step {}
    [.socket, .bind 0, .asyncConnect 0 default [] [], .onRead 0 [1, 2, 3] [], .asyncReadSome 0 [[0], [0]],
      .asyncReadSome 0 [[0, 0]], .asyncReadSome 0 [[0, 0]], .onRead 0 [4, 5, 6] [], .socket, .bind 1,
      .asyncConnect 1 default [.other 5] []]
    (fun w => (w.impls 0).closed = true ∧ unread (w.impls 0).rxBufferQueue = [6]) (by decide)
  obtain ⟨hstream, -⟩ := read_conserved hrun 0
  rw [hqueue] at hstream
  exact ⟨w, hrun, hclosed, hstream⟩

end World

end AsioUtp
