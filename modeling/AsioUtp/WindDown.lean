/-
How everything comes to its end.

It is about the runs in which no connect, accept or write was started on a
closed `socket_impl`: closing it again completes nothing, and a write left
waiting on it makes the destruction of its `utp_socket` assert. As in
`World.lean`, the slots of `on_send_to` leave the sockets alone.

When nothing new is started, what is left is to close the `socket`s, to run
what is posted and, for libutp, to destroy its sockets. Every such event comes
to its end and takes something off what is left to do, so they are over after
that many, in whatever order they come and with handlers nested in others
(`winds_down`). Then every call ever made has been answered, once; and the
count of outstanding operations is back where it started, but for the writes
that were resumed.
-/
import AsioUtp.Faults
import AsioUtp.Lingering
import AsioUtp.Owners
import AsioUtp.Lib.Descent

namespace AsioUtp

namespace World

open Machine Relation

/-- The events that start nothing: a `socket` with a `_socket_impl` is closed, libutp destroys a socket, a completion
is run, a handler returns. -/
def Winding (w : World) : Event → Prop
  | .close v => (w.sockets v).impl ≠ none
  | .stateChange u .destroying _ => u < w.created ∧ (w.utp u).alive = true
  | .run c => c ∈ w.posted
  | .ran => w.running ≠ []
  | _ => False

instance (w : World) : (ev : Event) → Decidable (w.Winding ev)
  | .close v => inferInstanceAs (Decidable ((w.sockets v).impl ≠ none))
  | .stateChange _ .destroying _ => inferInstanceAs (Decidable (_ ∧ _))
  | .run c => inferInstanceAs (Decidable (c ∈ w.posted))
  | .ran => inferInstanceAs (Decidable (w.running ≠ []))
  | .stateChange _ .connect _ | .stateChange _ .writable _ | .stateChange _ .eof _ | .socket | .bind _
  | .moveConstruct _ | .moveAssign _ _ | .asyncConnect _ _ _ _ | .asyncAccept _ | .asyncWriteSome _ _ _
  | .asyncReadSome _ _ | .sendto _ | .onRead _ _ _ | .incoming _ _ _ | .context _ => inferInstanceAs (Decidable False)

theorem Winding.admitted {w : World} {ev : Event} (h : w.Winding ev) (hw : Formed w) :
    w.Enabled ev ∧ w.StartsOpen ev ∧ w.resumes ev = false := by
  cases ev with
  | close v =>
    obtain ⟨i, hi⟩ := Option.ne_none_iff_exists'.1 h
    exact ⟨(hw.sockets v i hi).2.1, trivial, rfl⟩
  | stateChange u state rs =>
    cases state with
    | destroying => exact ⟨h, trivial, rfl⟩
    | _ => exact h.elim
  | run c => exact ⟨h, trivial, rfl⟩
  | ran => exact ⟨h, trivial, rfl⟩
  | _ => exact h.elim

/-! ## What is left to do -/

/-- The `socket`s that have a `_socket_impl`. -/
def boundSockets (w : World) : Nat := (List.range w.made).countP fun v => (w.sockets v).impl.isSome

/-- The `utp_socket`s libutp has. -/
def liveUtps (w : World) : Nat := (List.range w.created).countP fun u => (w.utp u).alive

/-- A handler in its slot is to be posted, run and returned from. -/
def handling (w : World) : Nat := 3 * w.pendingOps + 2 * w.posted.length + w.running.length

def toDo (w : World) : Nat := w.handling + w.boundSockets + w.liveUtps

theorem tally_eq (w : World) : w.tally (fun _ => true) = w.pendingOps + w.posted.length + w.running.length := by
  have hheld : w.total (SocketImpl.held fun _ => true) = w.pendingOps := by
    refine congrArg List.sum (List.map_congr_left fun i _ => List.countP_congr fun slot _ => ?_)
    cases (w.impls i).handlers slot <;> simp
  rw [tally, hheld, due, List.countP_true, List.length_append]
  omega

/-- Moves that only take handlers from their slots to the user lose none and run none. -/
theorem Path.tally {ok : Label → Prop} {p : Handler → Bool} {w w' : World} (h : Path ok w w') (hw : Regular w)
    (hok : ∀ l, ok l → l.Steady) : w'.tally p = w.tally p ∧ w'.running = w.running := by
  induction h with
  | refl => exact ⟨rfl, rfl⟩
  | @tail s s' hsofar hm ih =>
    obtain ⟨l, hl, hm⟩ := hm
    have hsteady := hok l hl
    have hs := Path.regular hsofar hw
    have htally := tally_move p hs.sound.formed hs.placed hm
    have hsame : s'.tally p = s.tally p := by
      unfold Counts at htally
      cases l <;> first | exact hsteady.elim | exact htally
    exact ⟨hsame.trans ih.1, (hm.ops_running hsteady.inner).2.trans ih.2⟩

/-- What is posted was in a slot. -/
theorem handling_le {w w' : World} {ev : Event} (hw : Regular w) (hr : Reading w) (hen : w.Enabled ev)
    (hev : ev.Steady) (hs : w.step ev = .ok w') : w'.handling ≤ w.handling := by
  obtain ⟨htally, hrunning⟩ := (steady_path hw.sound hen hev hs).tally (p := fun _ => true) hw fun _ => And.right
  rw [tally_eq, tally_eq, hrunning] at htally
  rcases step_posts hw hr hen hs with ⟨c, rfl, -⟩ | ⟨cs, hcs, -⟩
  · exact hev.elim
  · rw [hcs, List.length_append] at htally
    unfold handling
    rw [hcs, hrunning, List.length_append]
    omega

/-- No `socket` gets a `_socket_impl`, and libutp makes nothing. -/
structure Fades (w w' : World) : Prop where
  made : w'.made = w.made
  created : w'.created = w.created
  impl : ∀ v, (w'.sockets v).impl ≠ none → (w.sockets v).impl ≠ none
  alive : ∀ u, (w'.utp u).alive = true → (w.utp u).alive = true

theorem Fades.refl (w : World) : Fades w w := ⟨rfl, rfl, fun _ => id, fun _ => id⟩

theorem Fades.trans {w w' w'' : World} (h : Fades w w') (h' : Fades w' w'') : Fades w w'' :=
  ⟨h'.made.trans h.made, h'.created.trans h.created, fun v hv => h.impl v (h'.impl v hv),
    fun u hu => h.alive u (h'.alive u hu)⟩

/-- The labels of closing and of destruction. -/
def Label.Fading : Label → Prop
  | .release _ | .die _ | .destroy _ _ | .decrement _ => True
  | l => l.Closing

theorem Move.fades {w w' : World} {l : Label} (hm : Move w l w') (hl : l.Fading) : Fades w w' := by
  have hdies : ∀ u u', (Function.update w.utp u { w.utp u with alive := false } u').alive = true →
      (w.utp u').alive = true := by
    intro u u' h
    by_cases hu : u' = u
    · subst hu
      simp at h
    · rwa [Function.update_of_ne hu] at h
  cases hm with
  | @shut i ec _ _ _ =>
    obtain ⟨utp, heq, hutp⟩ := shutUtp_eq w i ec
    rw [heq]
    refine ⟨rfl, rfl, fun _ => id, fun u hu => ?_⟩
    have hu : (utp u).alive = true := hu
    rcases hutp u with h | ⟨-, h⟩
    · rwa [h] at hu
    · simpa [h] using hu
  | @finish _ i _ hf =>
    obtain ⟨-, c, -, rfl⟩ := finishClose_ok_iff.1 hf
    refine ⟨rfl, rfl, fun v hv => ?_, fun _ => id⟩
    cases ho : (w.impls i).owner with
    | none => simpa [ho] using hv
    | some v' =>
      by_cases hvv : v = v'
      · subst hvv
        simp [ho] at hv
      · simpa [ho, hvv] using hv
  | @release v _ =>
    refine ⟨rfl, rfl, fun v' hv => ?_, fun _ => id⟩
    by_cases hvv : v' = v
    · subst hvv
      simp [setSocket] at hv
    · simpa [setSocket, hvv] using hv
  | die => exact ⟨rfl, rfl, fun _ => id, hdies _⟩
  | destroy => exact ⟨rfl, rfl, fun _ => id, hdies _⟩
  | decrement => exact ⟨rfl, rfl, fun _ => id, fun _ => id⟩
  | _ => exact hl.elim

theorem Path.fades {ok : Label → Prop} {w w' : World} (h : Path ok w w') (hok : ∀ l, ok l → l.Fading) : Fades w w' := by
  induction h with
  | refl => exact .refl _
  | tail _ hm ih =>
    obtain ⟨l, hl, hm⟩ := hm
    exact ih.trans (hm.fades (hok l hl))

theorem Fades.boundSockets_le {w w' : World} (h : Fades w w') : w'.boundSockets ≤ w.boundSockets := by
  unfold boundSockets
  rw [h.made]
  exact List.countP_mono_left fun v _ hv => by
    simpa [Option.isSome_iff_ne_none] using h.impl v (by simpa [Option.isSome_iff_ne_none] using hv)

theorem Fades.liveUtps_le {w w' : World} (h : Fades w w') : w'.liveUtps ≤ w.liveUtps := by
  unfold liveUtps
  rw [h.created]
  exact List.countP_mono_left fun u _ hu => h.alive u hu

/-- One that counted before and does not now. -/
theorem countP_lt {α : Type} {l : List α} {p q : α → Bool} (h : ∀ x ∈ l, p x = true → q x = true) {x : α} (hx : x ∈ l)
    (hp : p x = false) (hq : q x = true) : l.countP p < l.countP q := by
  obtain ⟨l₁, l₂, rfl⟩ := List.append_of_mem hx
  have h1 := List.countP_mono_left (l := l₁) (p := p) (q := q) fun y hy => h y (by simp [hy])
  have h2 := List.countP_mono_left (l := l₂) (p := p) (q := q) fun y hy => h y (by simp [hy])
  simp only [List.countP_append, List.countP_cons, hp, hq, if_true, Bool.false_eq_true, if_false]
  omega

/-! ## Every step takes something off -/

/-- What winding down keeps. -/
structure Windable (w : World) : Prop where
  regular : Regular w
  reading : Reading w
  idle : ClosedIdle w
  owned : Owned w

theorem Windable.closable {w : World} (h : Windable w) : Closable w := ⟨h.regular.sound, h.regular.settled, h.idle⟩

theorem Windable.step {w w' : World} {ev : Event} (h : Windable w) (hen : w.Enabled ev) (hopen : w.StartsOpen ev)
    (hs : w.step ev = .ok w') : Windable w' where
  regular := (step_awaiting (k := 0) h.regular hen hs).1
  reading := reading_step h.regular.sound h.reading hen hs
  idle := closedIdle_step h.regular.sound h.idle hen hopen hs
  owned := (paired_step ⟨h.regular.sound, h.owned⟩ hen hs).2

theorem close_toDo {w w' : World} {v : Nat} (h : Windable w) (hv : (w.sockets v).impl ≠ none)
    (hs : w.step (.close v) = .ok w') : w'.toDo < w.toDo := by
  obtain ⟨i, hi⟩ := Option.ne_none_iff_exists'.1 hv
  have hmade : v < w.made := (h.regular.sound.formed.sockets v i hi).2.1
  have hfades : Fades w w' := (close_path h.regular.sound.formed hs).fades fun l hl => by
    rcases hl with hl | rfl
    · cases l <;> first | exact hl.elim | trivial
    · trivial
  have hhandling := handling_le h.regular h.reading (show w.Enabled (.close v) from hmade) rfl hs
  have hlive := hfades.liveUtps_le
  have hbound : w'.boundSockets < w.boundSockets := by
    unfold boundSockets
    rw [hfades.made]
    refine countP_lt (fun x _ hx => ?_) (List.mem_range.2 hmade) ?_ (by simp [hi])
    · exact Option.isSome_iff_ne_none.2 (hfades.impl x (Option.isSome_iff_ne_none.1 hx))
    · simp [close_impl hs]
  unfold toDo
  omega

theorem destroying_toDo {w w' : World} {u : Nat} {rs : List WriteReply} (h : Windable w) (hu : u < w.created)
    (halive : (w.utp u).alive = true) (hs : w.step (.stateChange u .destroying rs) = .ok w') : w'.toDo < w.toDo := by
  have hfades : Fades w w' := (destroying_path halive hs).fades fun l hl => by
    rcases hl with rfl | ⟨i, -, rfl | rfl⟩ <;> trivial
  have hen : w.Enabled (.stateChange u .destroying rs) := ⟨hu, halive⟩
  have hhandling := handling_le h.regular h.reading hen rfl hs
  have hbound := hfades.boundSockets_le
  have hdead : (w'.utp u).alive = false := by
    simp only [step, stateChange, if_true, Except.bind_ok_iff, Except.pure_ok_iff] at hs
    obtain ⟨w₁, -, rfl⟩ := hs
    simp [setUtp]
  have hlive : w'.liveUtps < w.liveUtps := by
    unfold liveUtps
    rw [hfades.created]
    exact countP_lt (fun x _ hx => hfades.alive x hx) (List.mem_range.2 hu) hdead halive
  unfold toDo
  omega

theorem run_toDo {w : World} {c : Completion} (hc : c ∈ w.posted) : (w.run c).toDo < w.toDo := by
  have hposted : (w.posted.erase c).length = w.posted.length - 1 := List.length_erase_of_mem hc
  have hpos : 0 < w.posted.length := List.length_pos_of_mem hc
  have hsame : (w.run c).pendingOps = w.pendingOps ∧ (w.run c).boundSockets = w.boundSockets ∧
      (w.run c).liveUtps = w.liveUtps := ⟨rfl, rfl, rfl⟩
  obtain ⟨h1, h2, h3⟩ := hsame
  unfold toDo handling
  rw [h1, h2, h3]
  show 3 * w.pendingOps + 2 * (w.posted.erase c).length + (c :: w.running).length + _ + _ < _
  rw [hposted, List.length_cons]
  omega

theorem ran_toDo {w : World} (h : w.running ≠ []) : w.ran.toDo < w.toDo := by
  obtain ⟨c, rest, hrun⟩ := List.exists_cons_of_ne_nil h
  have hsame : w.ran.pendingOps = w.pendingOps ∧ w.ran.posted = w.posted ∧ w.ran.running = rest ∧
      w.ran.boundSockets = w.boundSockets ∧ w.ran.liveUtps = w.liveUtps := by
    simp only [World.ran, hrun]
    split <;> exact ⟨rfl, rfl, rfl, rfl, rfl⟩
  obtain ⟨h1, h2, h3, h4, h5⟩ := hsame
  unfold toDo handling
  rw [h1, h2, h3, h4, h5, hrun, List.length_cons]
  omega

/-- **Each of these events comes to its end, and takes something off what is left to do.** -/
theorem winding_descends : Descends Winding step Windable toDo := by
  intro w ev h hev
  obtain ⟨hen, hopen, -⟩ := hev.admitted h.regular.sound.formed
  suffices hstep : ∃ w', w.step ev = .ok w' ∧ w'.toDo < w.toDo by
    obtain ⟨w', hs, hlt⟩ := hstep
    exact ⟨w', hs, h.step hen hopen hs, hlt⟩
  cases ev with
  | close v =>
    obtain ⟨w', hs⟩ := close_ok h.closable v
    exact ⟨w', hs, close_toDo h hev hs⟩
  | stateChange u state rs =>
    cases state with
    | destroying =>
      obtain ⟨w', hs⟩ := destroying_ends rs h.closable hev.2
      exact ⟨w', hs, destroying_toDo h hev.1 hev.2 hs⟩
    | _ => exact hev.elim
  | run c => exact ⟨_, rfl, run_toDo hev⟩
  | ran => exact ⟨_, rfl, ran_toDo hev⟩
  | _ => exact hev.elim

/-! ## The end -/

/-- Every `socket` is closed, and every completion has been run and has returned. -/
structure Over (w : World) : Prop where
  sockets : ∀ v, (w.sockets v).impl = none
  posted : w.posted = []
  running : w.running = []

/-- Whoever has something pending is open, and so some `socket`'s. -/
theorem Over.idle {w : World} (h : Over w) (hw : Windable w) (i : Nat) (slot : Slot) : ¬ w.Pending i slot := by
  intro hp
  obtain ⟨x, hx⟩ := Option.ne_none_iff_exists'.1 hp
  have hi := hw.regular.placed.registered hx
  cases hc : (w.impls i).closed with
  | true => exact hp (hw.idle i hc slot)
  | false =>
    obtain ⟨v, -, hv⟩ := hw.owned.owner i hi hc
    rw [h.sockets v] at hv
    cases hv

theorem Over.awaiting {w : World} (h : Over w) (hw : Windable w) (k : Nat) : w.awaiting k = 0 := by
  have hheld : w.total (SocketImpl.held (·.op == k)) = 0 := by
    rw [total, List.sum_eq_zero_iff_forall_eq_nat]
    intro n hn
    obtain ⟨i, -, rfl⟩ := List.mem_map.1 hn
    exact held_eq_zero fun slot => not_not.1 (h.idle hw i slot)
  simp [World.awaiting, hheld, h.posted]

theorem Over.count {w : World} {n : Nat} {own : List Context.Event} (h : Over w) (hw : Windable w)
    (he : Exceeds n own w) : w.ctx.outstandingOpCount = w.closing + n := by
  have hpending := (pendingOps_eq_zero he.placed).2 (h.idle hw)
  have hcompletions : w.completions = 0 := by simp [completions, h.posted, h.running]
  have := he.count_eq
  omega

theorem over_of_final {w : World} (h : ∀ ev, ¬ w.Winding ev) :
    Over w ∧ ∀ u < w.created, (w.utp u).alive = false := by
  refine ⟨⟨fun v => not_not.1 (h (.close v)), ?_, not_not.1 (h .ran)⟩, fun u hu => ?_⟩
  · exact List.eq_nil_iff_forall_not_mem.2 fun c => h (.run c)
  · by_contra halive
    exact h (.stateChange u .destroying []) ⟨hu, by simpa using halive⟩

theorem reachable_windable {w : World} (h : Reachable (fun w ev => w.Enabled ev ∧ w.StartsOpen ev) step {} w) :
    Windable w := by
  have hpaired : Paired w :=
    h.invariant Paired (fun w ev w' hw hok hs => paired_step hw hok.1 hs) paired_init
  have hsafe := reachable_safe h
  exact ⟨hsafe.regular, hsafe.reading, hsafe.idle, hpaired.2⟩

/-- Winding down resumes no write. -/
theorem resumptions_winding {w w' : World} {evs evs' : List Event} (h : Run Enabled step {} evs w) (hw : Windable w)
    (hwind : Run Winding step w evs' w') : resumptions (evs ++ evs') = resumptions evs := by
  have hrec : Windable w' ∧ record step (fun w ev _ n => n + (w.resumes ev).toNat) w (resumptions evs) evs' =
      resumptions evs := by
    refine hwind.recorded (fun w n => Windable w ∧ n = resumptions evs) ?_ ⟨hw, rfl⟩
    rintro s n ev s' ⟨hs, rfl⟩ hev hstep
    obtain ⟨hen, hopen, hres⟩ := hev.admitted hs.regular.sound.formed
    exact ⟨hs.step hen hopen hstep, by rw [hres]; rfl⟩
  rw [resumptions, h.record_append]
  exact hrec.2

/-- **Everything comes to its end.** From wherever a run has led that started no connect, accept or write on a
closed `socket_impl`, if only `socket`s are closed, completions run, handlers returned from and `utp_socket`s
destroyed, none of it faults and it is over after at most `toDo` such events; and it can be brought to the end. With
every `socket` closed and every completion run nothing is pending, every call ever made has been answered once, and
the count of outstanding operations is that of the closes libutp has yet to end and of the writes that were resumed:
of the latter alone, when libutp has destroyed what it was told to close. -/
theorem winds_down {w : World} {evs : List Event}
    (h : Run (fun w ev => w.Enabled ev ∧ w.StartsOpen ev) step {} evs w) :
    (∃ evs' w', Run Winding step w evs' w' ∧ w'.Over ∧ ∀ u < w'.created, (w'.utp u).alive = false) ∧
    ∀ evs' w', Run Winding step w evs' w' →
      evs'.length ≤ w.toDo ∧ (∀ ev, w'.Winding ev → ∃ w'', w'.step ev = .ok w'') ∧
      (w'.Over → (∀ i slot, ¬ w'.Pending i slot) ∧ (∀ k < w.ops, (evs ++ evs').countP (·.runs k) = 1) ∧
        w'.ctx.outstandingOpCount = w'.closing + resumptions evs ∧
        ((∀ u < w'.created, (w'.utp u).closes = 1 → (w'.utp u).alive = false) →
          w'.ctx.outstandingOpCount = resumptions evs)) := by
  have hw := reachable_windable ⟨_, h⟩
  have henabled : Run Enabled step {} evs w := h.mono fun _ _ => And.left
  refine ⟨?_, fun evs' w' hrun => ?_⟩
  · obtain ⟨evs', w', hrun, hfinal⟩ := winding_descends.ends hw
    exact ⟨evs', w', hrun, over_of_final hfinal⟩
  obtain ⟨hw', hle⟩ := winding_descends.run hrun hw
  refine ⟨by omega, fun ev hev => ?_, fun hover => ?_⟩
  · obtain ⟨w'', hs, -⟩ := winding_descends w' ev hw' hev
    exact ⟨w'', hs⟩
  -- The two runs in one.
  have hall : Run Enabled step {} (evs ++ evs') w' := henabled.append
    (winding_descends.admitted (fun s ev hs hev => (hev.admitted hs.regular.sound.formed).1) hrun hw)
  have he := run_exceeds hall
  rw [resumptions_winding henabled hw hrun] at he
  have hcount := hover.count hw' he
  refine ⟨hover.idle hw', fun k hk => ?_, hcount, fun hdead => ?_⟩
  · obtain ⟨-, hops, -⟩ := run_awaiting henabled
    obtain ⟨-, hops', hruns⟩ := run_awaiting hall
    have hk' : k < w'.ops := by
      rw [List.countP_append] at hops'
      omega
    have honce := hruns k
    rwa [if_pos hk', hover.awaiting hw' k, Nat.add_zero] at honce
  · have hclosing : w'.closing = 0 := by
      refine (closing_eq_zero he.placed).2 fun i => ?_
      by_contra hd
      obtain ⟨u, hlt, -, halive, hcloses⟩ := reachable_lingering ⟨_, hall⟩ (by simpa using hd)
      rw [hdead u hlt hcloses] at halive
      cases halive
    omega

/-- A socket that is connecting, with a read pending: eight events at most are left, and after them both calls have
been answered and the count is zero. -/
theorem winds_down_connecting :
    ∃ w evs' w', Run (fun w ev => w.Enabled ev ∧ w.StartsOpen ev) step {}
        [.socket, .bind 0, .asyncConnect 0 default [] [], .asyncReadSome 0 [[0]]] w ∧
      Run Winding step w evs' w' ∧ evs'.length ≤ 8 ∧ evs'.countP (·.runs 0) = 1 ∧ evs'.countP (·.runs 1) = 1 ∧
      w'.ctx.outstandingOpCount = 0 := by
  obtain ⟨w, hrun, htoDo, hops⟩ := exists_run (fun w ev => Enabled w ev ∧ StartsOpen w ev) step {}
    [.socket, .bind 0, .asyncConnect 0 default [] [], .asyncReadSome 0 [[0]]]
    (fun w => w.toDo = 8 ∧ w.ops = 2) (by decide)
  obtain ⟨⟨evs', w', hwind, hover, hdead⟩, hall⟩ := winds_down hrun
  obtain ⟨hlen, -, hend⟩ := hall evs' w' hwind
  obtain ⟨-, hcalls, -, hcount⟩ := hend hover
  exact ⟨w, evs', w', hrun, hwind, by omega, by simpa [Event.runs] using hcalls 0 (by omega),
    by simpa [Event.runs] using hcalls 1 (by omega), hcount fun u hu _ => hdead u hu⟩

end World

end AsioUtp
