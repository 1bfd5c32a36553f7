/-
The accept queue. A `socket_impl` that waits to accept is recorded twice, by
its link in `_accepting_sockets` and by its `_accept_handler`, and
`close_with_error` clears only the second. In runs that close no socket while
it waits to accept, the two records agree, whoever waits is open and has no
`utp_socket`, and connections go to the accept started first
(`accept_queue`). One that is closed while it waits breaks the next
connection (`closed_waiter_accepts`).
-/
import AsioUtp.Handles

namespace AsioUtp

namespace World

open Machine

structure Waiting (w : World) : Prop where
  linked : ∀ i, i ∈ w.acceptingSockets ↔ w.Pending i .accept
  idle : ∀ i, w.Pending i .accept → (w.impls i).closed = false ∧ (w.impls i).utpSocket = none
  eof : ∀ i, (w.impls i).gotEof = true → (w.impls i).closed = true ∨ (w.impls i).utpSocket ≠ none
  numbered : ∀ i h, (w.impls i).handlers .accept = some h → h.op < w.ops
  order : w.acceptingSockets.Pairwise fun i j =>
    ∀ h h', (w.impls i).handlers .accept = some h → (w.impls j).handlers .accept = some h' → h.op < h'.op

theorem waiting_init : Waiting {} where
  linked := by simp [Pending]
  idle := by simp [Pending]
  eof := by simp
  numbered := by simp
  order := by simp

/-- The moves that keep the two records together: an accept starts on an open, unattached socket
with the newest number, and a socket that waits is neither connected nor closed. -/
def AcceptSound (w : World) : Label → Prop
  | .waiting i h => (w.impls i).closed = false ∧ (w.impls i).utpSocket = none ∧ h.op < w.ops ∧
      ∀ j h', (w.impls j).handlers .accept = some h' → h'.op < h.op
  | .connect i _ | .shut i _ | .destroy i _ => ¬ w.Pending i .accept
  | .eof i => (w.impls i).utpSocket ≠ none
  | _ => True

theorem Waiting.same {w w' : World} (h : Waiting w) (hacc : w'.acceptingSockets = w.acceptingSockets)
    (hops : w.ops ≤ w'.ops) (hslot : ∀ j, (w'.impls j).handlers .accept = (w.impls j).handlers .accept)
    (hidle : ∀ j, w.Pending j .accept → (w'.impls j).closed = (w.impls j).closed ∧
      (w'.impls j).utpSocket = (w.impls j).utpSocket)
    (heof : ∀ j, (w'.impls j).gotEof = true → (w'.impls j).closed = true ∨ (w'.impls j).utpSocket ≠ none) :
    Waiting w' where
  linked j := by
    rw [hacc, Pending, hslot]
    exact h.linked j
  idle j hj := by
    rw [Pending, hslot] at hj
    rw [(hidle j hj).1, (hidle j hj).2]
    exact h.idle j hj
  eof := heof
  numbered j x hx := by
    rw [hslot] at hx
    have := h.numbered j x hx
    omega
  order := by
    rw [hacc]
    refine h.order.imp fun hij x x' hx hx' => ?_
    rw [hslot] at hx hx'
    exact hij x x' hx hx'

theorem Waiting.setImpl {w w' : World} (h : Waiting w) {i : Nat} {s : SocketImpl}
    (himpl : w'.impls = Function.update w.impls i s) (hacc : w'.acceptingSockets = w.acceptingSockets)
    (hops : w.ops ≤ w'.ops) (hslot : s.handlers .accept = (w.impls i).handlers .accept)
    (hidle : w.Pending i .accept → s.closed = (w.impls i).closed ∧ s.utpSocket = (w.impls i).utpSocket)
    (heof : s.gotEof = true → s.closed = true ∨ s.utpSocket ≠ none) : Waiting w' := by
  refine h.same hacc hops (fun j => ?_) (fun j hj => ?_) fun j hj => ?_ <;> rw [himpl] at * <;>
    by_cases hji : j = i
  · subst hji
    rw [Function.update_self]
    exact hslot
  · rw [Function.update_of_ne hji]
  · subst hji
    rw [Function.update_self]
    exact hidle hj
  · rw [Function.update_of_ne hji]
    exact ⟨rfl, rfl⟩
  · subst hji
    rw [Function.update_self] at hj ⊢
    exact heof hj
  · rw [Function.update_of_ne hji] at hj ⊢
    exact h.eof j hj

theorem setHandler_accept {s : SocketImpl} {slot : Slot} {h : Option Handler} (hslot : slot ≠ .accept) :
    (s.setHandler slot h).handlers .accept = s.handlers .accept := by
  rw [setHandler_handlers, Function.update_of_ne hslot.symm]

theorem Waiting.head_unique {w : World} (h : Waiting w) {i : Nat} {rest : List Nat}
    (hacc : w.acceptingSockets = i :: rest) : i ∉ rest := by
  intro hi
  obtain ⟨x, hx⟩ := Option.ne_none_iff_exists'.1 ((h.linked i).1 (by rw [hacc]; simp))
  have horder := h.order
  rw [hacc, List.pairwise_cons] at horder
  have := horder.1 i hi x x hx hx
  omega

theorem waiting_push {w : World} (h : Waiting w) {i : Nat} {x : Handler} {c : Context}
    (hok : AcceptSound w (.waiting i x)) (hacc : i ∉ w.acceptingSockets) :
    Waiting (({ w with ctx := c, acceptingSockets := w.acceptingSockets ++ [i] } : World).setImpl i
      ((w.impls i).setHandler .accept (some { x with after := true }))) := by
  obtain ⟨hopen, hnone, hlt, hnew⟩ := hok
  have hother : ∀ j ∈ w.acceptingSockets, j ≠ i := fun j hj hji => hacc (hji ▸ hj)
  refine ⟨fun j => ?_, fun j hj => ?_, fun j hj => ?_, fun j y hj => ?_, ?_⟩
  · by_cases hji : j = i
    · subst hji
      simp [setImpl, Pending]
    · simpa [setImpl, Pending, hji] using h.linked j
  · by_cases hji : j = i
    · subst hji
      rw [setImpl_impls, Function.update_self]
      exact ⟨hopen, hnone⟩
    · simp only [setImpl, Pending, Function.update_of_ne hji] at hj ⊢
      exact h.idle j hj
  · by_cases hji : j = i
    · subst hji
      rw [setImpl_impls, Function.update_self] at hj ⊢
      exact h.eof j hj
    · simp only [setImpl, Function.update_of_ne hji] at hj ⊢
      exact h.eof j hj
  · by_cases hji : j = i
    · subst hji
      simp only [setImpl_impls, Function.update_self, setHandler_handlers, Option.some.injEq] at hj
      rw [← hj]
      exact hlt
    · simp only [setImpl, Function.update_of_ne hji] at hj
      exact h.numbered j y hj
  · refine List.pairwise_append.2 ⟨h.order.imp_of_mem fun {j k} hj hk hjk => ?_, by simp, fun j hj k hk => ?_⟩
    · simp only [setImpl, Function.update_of_ne (hother j hj), Function.update_of_ne (hother k hk)]
      exact hjk
    · rw [List.mem_singleton.1 hk]
      intro y y' hy hy'
      simp only [setImpl, Function.update_of_ne (hother j hj)] at hy
      simp only [setImpl_impls, Function.update_self, setHandler_handlers, Option.some.injEq] at hy'
      rw [← hy']
      exact hnew j y hy

theorem waiting_pop {w w' : World} (h : Waiting w) {i u : Nat} {rest : List Nat} {s : SocketImpl}
    (hacc : w.acceptingSockets = i :: rest) (himpl : w'.impls = Function.update w.impls i s)
    (hacc' : w'.acceptingSockets = rest) (hops : w'.ops = w.ops) (hslot : s.handlers .accept = none)
    (hutp : s.utpSocket = some u) : Waiting w' := by
  -- The first socket leaves the queue and its slot at once.
  have hi := h.head_unique hacc
  have horder := h.order
  rw [hacc, List.pairwise_cons] at horder
  have hother : ∀ j ∈ rest, j ≠ i := fun j hj hji => hi (hji ▸ hj)
  refine ⟨fun j => ?_, fun j hj => ?_, fun j hj => ?_, fun j y hj => ?_, ?_⟩
  · rw [hacc', Pending, himpl]
    by_cases hji : j = i
    · subst hji
      simpa [hslot] using hi
    · have hl := h.linked j
      rw [hacc] at hl
      simpa [hji, Pending] using hl
  · rw [Pending, himpl] at hj
    rw [himpl]
    by_cases hji : j = i
    · subst hji
      rw [Function.update_self] at hj
      exact absurd hslot hj
    · rw [Function.update_of_ne hji] at hj ⊢
      exact h.idle j hj
  · rw [himpl] at hj ⊢
    by_cases hji : j = i
    · subst hji
      rw [Function.update_self, hutp]
      exact .inr (by simp)
    · rw [Function.update_of_ne hji] at hj ⊢
      exact h.eof j hj
  · rw [himpl] at hj
    rw [hops]
    by_cases hji : j = i
    · subst hji
      rw [Function.update_self, hslot] at hj
      cases hj
    · rw [Function.update_of_ne hji] at hj
      exact h.numbered j y hj
  · rw [hacc', himpl]
    refine horder.2.imp_of_mem fun {j k} hj hk hjk => ?_
    rw [Function.update_of_ne (hother j hj), Function.update_of_ne (hother k hk)]
    exact hjk

theorem waiting_move {w w' : World} {l : Label} (hf : Formed w) (h : Waiting w) (hok : AcceptSound w l)
    (hm : Move w l w') : Waiting w' := by
  cases hm with
  | setup _ _ _ ha _ _ => exact h.setImpl rfl rfl le_rfl (setHandler_accept ha) (fun _ => ⟨rfl, rfl⟩) (h.eof _)
  | connect =>
    refine h.setImpl rfl rfl le_rfl ?_ (fun hp => absurd hp hok) fun _ => .inr (by simp)
    rw [setHandler_handlers, Function.update_of_ne (by simp)]
  | waiting _ _ hl _ => exact waiting_push h hok hl
  | take => exact h.setImpl rfl rfl le_rfl (setHandler_accept (by simp)) (fun _ => ⟨rfl, rfl⟩) (h.eof _)
  | post _ hs => exact h.setImpl rfl rfl le_rfl (setHandler_accept hs) (fun _ => ⟨rfl, rfl⟩) (h.eof _)
  | @shut i ec _ _ _ =>
    obtain ⟨utp, heq, -⟩ := shutUtp_eq w i ec
    rw [heq]
    exact h.setImpl rfl rfl le_rfl (not_not.1 hok).symm (fun hp => absurd hp hok) fun _ => .inl rfl
  | finish hclosed hfin =>
    obtain ⟨-, c, -, rfl⟩ := finishClose_ok_iff.1 hfin
    exact h.setImpl rfl rfl le_rfl rfl (fun _ => ⟨rfl, rfl⟩) (h.eof _)
  | data hs | received hs =>
    refine h.setImpl rfl rfl le_rfl (by rw [hs.handlers]) (fun _ => ⟨hs.closed, hs.utpSocket⟩) fun he => ?_
    rw [hs.gotEof] at he
    rw [hs.closed, hs.utpSocket]
    exact h.eof _ he
  | eof => exact h.setImpl rfl rfl le_rfl rfl (fun _ => ⟨rfl, rfl⟩) fun _ => .inr hok
  | decrement => exact h.setImpl rfl rfl le_rfl rfl (fun _ => ⟨rfl, rfl⟩) (h.eof _)
  | accept hacc => exact waiting_pop h hacc rfl rfl rfl (by simp) rfl
  | destroy =>
    exact h.setImpl rfl rfl le_rfl (not_not.1 hok).symm (fun hp => absurd hp hok) fun _ => .inl rfl
  | direct | wrote | create | die | socket | release | assign | run | loop =>
    exact h.same rfl le_rfl (fun _ => rfl) (fun _ _ => ⟨rfl, rfl⟩) h.eof
  | number => exact h.same rfl (Nat.le_succ _) (fun _ => rfl) (fun _ _ => ⟨rfl, rfl⟩) h.eof
  | bind =>
    unfold World.bind
    split
    · exact h
    · -- Nobody that is not registered waits.
      have hnone : ¬ w.Pending w.registeredSockets.length .accept := fun hp =>
        hf.unregistered (hf.accepting _ ((h.linked _).2 hp))
      exact h.setImpl rfl rfl le_rfl (not_not.1 hnone).symm (fun hp => absurd hp hnone) fun he => by simp at he
  | moveConstruct =>
    unfold World.moveConstruct
    dsimp only
    split
    · exact h.setImpl rfl rfl le_rfl rfl (fun _ => ⟨rfl, rfl⟩) (h.eof _)
    · exact h.same rfl le_rfl (fun _ => rfl) (fun _ _ => ⟨rfl, rfl⟩) h.eof
  | ran =>
    unfold World.ran
    split
    · exact h
    · dsimp only
      split <;> exact h.same rfl le_rfl (fun _ => rfl) (fun _ _ => ⟨rfl, rfl⟩) h.eof

/-! ## Every run -/

/-- What the sends of an event answer; where it closes a socket itself, those of `utp_close`. -/
def eventSends (w : World) : Event → List ErrorCode
  | .close v | .moveAssign v _ =>
    match (w.sockets v).impl with
    | none => []
    | some i =>
      if (w.impls i).closed ∨ (w.impls i).gotEof then []
      else (w.impls i).utpSocket.elim [] fun u => (w.utp u).onClose
  | .asyncConnect _ _ ecs _ | .onRead _ _ ecs | .incoming _ ecs _ => ecs
  | .asyncWriteSome _ _ rs | .stateChange _ .writable rs => rs.flatMap WriteReply.sends
  | .sendto ec => [ec]
  | _ => []

/-- `do_accept` is called on an open socket that is not attached, and `do_connect` on one that does
not wait to accept. -/
def AcceptsIdle (w : World) : Event → Prop
  | .asyncAccept v => ∀ i ∈ (w.sockets v).impl, (w.impls i).closed = false ∧ (w.impls i).utpSocket = none
  | .asyncConnect v _ _ _ => ∀ i ∈ (w.sockets v).impl, ¬ w.Pending i .accept
  | _ => True

/-- No socket is closed while it waits to accept: neither by the user, nor by a send that fails. -/
def ClosesNoWaiter (w : World) (ev : Event) : Prop :=
  (match ev with
    | .close v | .moveAssign v _ => ∀ i ∈ (w.sockets v).impl, ¬ w.Pending i .accept
    | _ => True) ∧
  ((∃ ec ∈ w.eventSends ev, fatal ec = true) → ∀ i ∈ w.registeredSockets, ¬ w.Pending i .accept)

/-- The events of the runs in question. -/
def AcceptEnabled (w : World) (ev : Event) : Prop := w.Enabled ev ∧ w.AcceptsIdle ev ∧ w.ClosesNoWaiter ev

instance (w : World) : (ev : Event) → Decidable (w.AcceptsIdle ev)
  | .asyncAccept v | .asyncConnect v _ _ _ => inferInstanceAs (Decidable (∀ i ∈ (w.sockets v).impl, _))
  | .socket | .bind _ | .moveConstruct _ | .moveAssign _ _ | .close _ | .asyncWriteSome _ _ _ | .asyncReadSome _ _
  | .sendto _ | .stateChange _ _ _ | .onRead _ _ _ | .incoming _ _ _ | .run _ | .ran | .context _ =>
    inferInstanceAs (Decidable True)

instance (w : World) (ev : Event) : Decidable (w.ClosesNoWaiter ev) := by
  unfold ClosesNoWaiter
  cases ev <;> infer_instance

instance (w : World) (ev : Event) : Decidable (w.AcceptEnabled ev) := inferInstanceAs (Decidable (_ ∧ _))

theorem eventSends_close {w : World} {v i u : Nat} (hi : (w.sockets v).impl = some i)
    (hc : (w.impls i).closed = false) (he : (w.impls i).gotEof = false) (hu : (w.impls i).utpSocket = some u) :
    w.eventSends (.close v) = (w.utp u).onClose := by
  simp [eventSends, hi, hc, he, hu]

theorem admits_acceptSound {w : World} (hw : Sound w) (h : Waiting w) {ev : Event} (hen : w.AcceptEnabled ev)
    (hquiet : ∀ ec ∈ w.eventSends ev, fatal ec = false) : Admits AcceptSound w ev := by
  -- Where no send fails fatally, the event closes nobody but the socket it is about.
  obtain ⟨hen, hidle, hcloses, -⟩ := hen
  have hbusy : ∀ i, (w.impls i).utpSocket ≠ none → ¬ w.Pending i .accept := fun i hu hp => hu (h.idle i hp).2
  have hclose : ∀ v, (∀ i ∈ (w.sockets v).impl, ¬ w.Pending i .accept) →
      (∀ ec ∈ w.eventSends (.close v), fatal ec = false) → ∀ i, (w.sockets v).impl = some i →
      (w.impls i).closed = false →
      Traces (Moves AcceptSound) Raises id w (w.closeWithError i .operationAborted) := by
    intro v hno hq i hi hopen
    refine closeWithError_quiet (hw.formed.sockets v i hi).1 hopen (hno i hi) (fun _ _ => trivial) fun u hu he => ?_
    rw [eventSends_close hi hopen he hu] at hq
    exact hq
  have hsends : ∀ rs : List WriteReply, (∀ ec ∈ rs.flatMap WriteReply.sends, fatal ec = false) →
      ∀ r ∈ rs, Sends AcceptSound w r.sends := fun rs hq r hr =>
    Sends.of_quiet fun ec hec => hq ec (List.mem_flatMap.2 ⟨r, hr, hec⟩)
  cases ev with
  | close v => exact hclose v hcloses hquiet
  | moveAssign v v' => exact hclose v hcloses hquiet
  | asyncConnect v ep ecs onClose => exact ⟨Sends.of_quiet hquiet, trivial, fun i hi => hidle i hi⟩
  | asyncAccept v =>
    refine ⟨trivial, fun i hi => ?_⟩
    obtain ⟨hopen, hnone⟩ := hidle i hi
    exact ⟨hopen, hnone, Nat.lt_succ_self _, fun j x hx => h.numbered j x hx⟩
  | asyncWriteSome v bufs rs => exact ⟨hsends rs hquiet, trivial, fun i _ => ⟨trivial, trivial⟩⟩
  | asyncReadSome v bufs =>
    refine ⟨trivial, fun i _ => ⟨fun _ => trivial, trivial, fun _ => trivial, fun w' heof hopen hsame hp => ?_⟩⟩
    -- At the end of its stream it is attached, so it does not wait.
    have hp : w.Pending i .accept := by rwa [Pending, ← hsame]
    rcases h.eof i heof with hc | hu
    · rw [hopen] at hc
      cases hc
    · exact hbusy i hu hp
  | sendto ec => exact Sends.of_quiet hquiet
  | stateChange u state rs =>
    intro i hi
    have hu : (w.impls i).utpSocket ≠ none := by
      rw [hw.handles.back u i hen.2 hi]
      simp
    cases state with
    | connect => trivial
    | writable => exact ⟨hsends rs hquiet, fun x _ => ⟨trivial, trivial, trivial⟩⟩
    | eof => exact hu
    | destroying => exact hbusy i hu
  | onRead u buf ecs => exact ⟨Sends.of_quiet hquiet, fun _ _ => trivial⟩
  | incoming ep ecs onClose => exact Sends.of_quiet hquiet
  | socket | bind _ | moveConstruct _ | run _ | ran | context _ => trivial

/-- The moves of an event whose sends may close anybody: no accept starts, no stream ends. -/
def Label.StartsNoAccept : Label → Prop
  | .waiting _ _ | .eof _ => False
  | _ => True

theorem starts_startsNoAccept {w : World} {ev : Event} (hfatal : ∃ ec ∈ w.eventSends ev, fatal ec = true) :
    Starts (fun _ l => l.StartsNoAccept) w ev := by
  cases ev with
  | asyncConnect v ep ecs onClose => exact ⟨trivial, fun i _ => trivial⟩
  | asyncWriteSome v bufs rs => exact ⟨trivial, fun i _ => ⟨trivial, trivial⟩⟩
  | stateChange u state rs =>
    cases state with
    | writable => exact fun i _ x _ => ⟨trivial, trivial, trivial⟩
    | connect | eof | destroying => simp [eventSends] at hfatal
  | onRead u buf ecs => exact fun _ _ => trivial
  | asyncAccept v => simp [eventSends] at hfatal
  | asyncReadSome v bufs => simp [eventSends] at hfatal
  | _ => trivial

theorem Move.accepting_subset {w w' : World} {l : Label} (hl : l.StartsNoAccept) (hm : Move w l w') :
    ∀ i ∈ w'.acceptingSockets, i ∈ w.acceptingSockets := by
  cases hm with
  | waiting => exact hl.elim  -- `do_accept` alone puts anybody into the queue
  | @shut i ec _ _ _ =>
    obtain ⟨utp, heq, -⟩ := shutUtp_eq w i ec
    rw [heq]
    exact fun _ h => h
  | finish _ hf =>
    obtain ⟨-, c, -, rfl⟩ := finishClose_ok_iff.1 hf
    exact fun _ h => h
  | accept hacc =>
    intro i hi
    rw [hacc]
    exact List.mem_cons_of_mem _ hi
  | bind =>
    unfold World.bind
    split <;> exact fun _ h => h
  | moveConstruct =>
    unfold World.moveConstruct
    dsimp only
    split <;> exact fun _ h => h
  | ran =>
    unfold World.ran
    split
    · exact fun _ h => h
    · dsimp only
      split <;> exact fun _ h => h
  | _ => exact fun _ h => h

/-- Both records agree after the event, and where it faults. -/
theorem Waiting.step {w : World} (hw : Sound w) (h : Waiting w) {ev : Event} (hen : w.AcceptEnabled ev) :
    (∀ w', w.step ev = .ok w' → Waiting w') ∧ ∀ f, w.step ev = .error f → ∃ w', Waiting w' ∧ RaisesIn ev w' f := by
  by_cases hfatal : ∃ ec ∈ w.eventSends ev, fatal ec = true
  · -- Nobody waits, and nobody starts to: closing whomever is no harm.
    have hempty : ∀ i, i ∉ w.acceptingSockets := fun i hi =>
      hen.2.2.2 hfatal i (hw.formed.accepting i hi) ((h.linked i).1 hi)
    have hkeep : ∀ s s', (Sound s ∧ Waiting s ∧ ∀ i, i ∉ s.acceptingSockets) →
        Moves (fun _ l => l.StartsNoAccept) s s' → Sound s' ∧ Waiting s' ∧ ∀ i, i ∉ s'.acceptingSockets := by
      rintro s s' ⟨hs, hwait, hno⟩ hm
      have hs' := sound_move hs hm
      obtain ⟨l, hl, hmove⟩ := hm
      have hidle : ∀ i, ¬ s.Pending i .accept := fun i hp => hno i ((hwait.linked i).2 hp)
      have hsound : AcceptSound s l := by
        cases l with
        | waiting i x | eof i => exact hl.elim
        | connect i x | shut i ec | destroy i u => exact hidle i
        | _ => trivial
      exact ⟨hs', waiting_move hs.formed hwait hsound hmove,
        fun i hi => hno i (hmove.accepting_subset hl i hi)⟩
    obtain ⟨hok, hfault⟩ := (hw.starts (fun _ l hl => by cases l <;> trivial) (fun _ l hl => by cases l <;> trivial)
      hen.1 (starts_startsNoAccept hfatal)).outcome _ hkeep ⟨hw, h, hempty⟩
    refine ⟨fun w' hs => (hok w' hs).2.1, fun f hs => ?_⟩
    obtain ⟨w', hw', hf⟩ := hfault f hs
    exact ⟨w', hw'.2.1, hf⟩
  · have hquiet : ∀ ec ∈ w.eventSends ev, fatal ec = false := fun ec hec => by
      cases hf : fatal ec with
      | false => rfl
      | true => exact absurd ⟨ec, hec, hf⟩ hfatal
    have hkeep : ∀ s s', Sound s ∧ Waiting s → Moves AcceptSound s s' → Sound s' ∧ Waiting s' := by
      rintro s s' ⟨hs, hwait⟩ ⟨l, hl, hmove⟩
      exact ⟨sound_move hs ⟨l, hl, hmove⟩, waiting_move hs.formed hwait hl hmove⟩
    obtain ⟨hok, hfault⟩ := (hw.traces (fun _ l hl => by cases l <;> trivial) hen.1
      (admits_acceptSound hw h hen hquiet)).outcome _ hkeep ⟨hw, h⟩
    refine ⟨fun w' hs => (hok w' hs).2, fun f hs => ?_⟩
    obtain ⟨w', hw', hf⟩ := hfault f hs
    exact ⟨w', hw'.2, hf⟩

theorem Waiting.head_oldest {w : World} (h : Waiting w) {i : Nat} {rest : List Nat}
    (hacc : w.acceptingSockets = i :: rest) :
    ∃ x, (w.impls i).handlers .accept = some x ∧ ∀ j y, (w.impls j).handlers .accept = some y → x.op ≤ y.op := by
  obtain ⟨x, hx⟩ := Option.ne_none_iff_exists'.1 ((h.linked i).1 (by rw [hacc]; simp))
  refine ⟨x, hx, fun j y hy => ?_⟩
  have hj : j ∈ w.acceptingSockets := (h.linked j).2 (by rw [Pending, hy]; simp)
  have horder := h.order
  rw [hacc, List.pairwise_cons] at horder
  rw [hacc] at hj
  rcases List.mem_cons.1 hj with rfl | hj
  · rw [hx] at hy
    cases hy
    exact le_rfl
  · exact (horder.1 j hj x y hx hy).le

/-- A connection that arrives while somebody waits goes to whoever stands first. -/
theorem incoming_head {w : World} (h : Waiting w) (ep : Endpoint) {ecs : List ErrorCode} (onClose : List ErrorCode)
    {i : Nat} {rest : List Nat} {x : Handler} (hacc : w.acceptingSockets = i :: rest)
    (hx : (w.impls i).handlers .accept = some x) (hquiet : ∀ ec ∈ ecs, fatal ec = false) :
    ∃ w', w.incoming ep ecs onClose = .ok w' ∧ w'.acceptingSockets = rest ∧
      (w'.impls i).utpSocket = some w.created ∧ (w'.utp w.created).userdata = some i ∧
      w'.posted = w.posted ++ [{ impl := some i, slot := .accept, handler := x, ec := .success }] := by
  have hnone : (w.impls i).utpSocket = none := (h.idle i (by rw [Pending, hx]; simp)).2
  simp only [incoming, callbackOnFirewall, hacc, sends_quiet hquiet, Except.ok_bind, callbackOnAccept, setUtp, onAccept,
    utpSetUserdata, Except.require, hnone, pure_bind, Pending, hx, postOp, setImpl, Function.update_self, if_true]
  exact ⟨_, rfl, rfl, by simp [post, SocketImpl.setHandler], by simp [post], rfl⟩

/-- **The accept queue is sound** in every run that closes no socket while it waits to accept: the
queue and the slots agree, whoever is queued is open and unattached, the assertions of `on_accept`
hold, the firewall lets a connection in only if somebody waits, and the connection goes to the
accept that was started first. -/
theorem accept_queue {w : World} (h : Reachable AcceptEnabled step {} w) :
    (∀ i, i ∈ w.acceptingSockets ↔ w.Pending i .accept) ∧
    (∀ i ∈ w.acceptingSockets, (w.impls i).closed = false ∧ (w.impls i).utpSocket = none) ∧
    (w.callbackOnFirewall = false →
      ∃ i ∈ w.registeredSockets, w.Pending i .accept ∧ (w.impls i).closed = false) ∧
    (∀ ev, w.AcceptEnabled ev → w.step ev ≠ .error (.assertion .onAcceptSocket) ∧
      w.step ev ≠ .error (.assertion .onAcceptHandler)) ∧
    ∀ ep ecs onClose, w.AcceptEnabled (.incoming ep ecs onClose) → w.callbackOnFirewall = false →
      ∃ i x w', (w.impls i).handlers .accept = some x ∧
        (∀ j y, (w.impls j).handlers .accept = some y → x.op ≤ y.op) ∧
        w.step (.incoming ep ecs onClose) = .ok w' ∧ (w'.impls i).utpSocket = some w.created ∧
        (w'.utp w.created).userdata = some i ∧
        w'.posted = w.posted ++ [{ impl := some i, slot := .accept, handler := x, ec := .success }] := by
  obtain ⟨hw, hwait⟩ : Sound w ∧ Waiting w := by
    refine h.invariant (fun w => Sound w ∧ Waiting w) (fun w ev w' hw hen hs => ?_) ⟨sound_init, waiting_init⟩
    exact ⟨sound_step hw.1 hen.1 hs, (hw.2.step hw.1 hen).1 w' hs⟩
  have hadmits : w.callbackOnFirewall = false → ∃ i rest, w.acceptingSockets = i :: rest := by
    intro hf
    cases hacc : w.acceptingSockets with
    | nil => simp [callbackOnFirewall, hacc] at hf
    | cons i rest => exact ⟨i, rest, rfl⟩
  refine ⟨hwait.linked, fun i hi => hwait.idle i ((hwait.linked i).1 hi), fun hf => ?_, fun ev hen => ?_, ?_⟩
  · obtain ⟨i, rest, hacc⟩ := hadmits hf
    have hi : i ∈ w.acceptingSockets := by simp [hacc]
    have hp := (hwait.linked i).1 hi
    exact ⟨i, hw.formed.accepting i hi, hp, (hwait.idle i hp).1⟩
  · constructor <;> intro hs <;> obtain ⟨w', hw', i, rest, hacc, hbad⟩ := (hwait.step hw hen).2 _ hs <;>
      have hp := (hw'.linked i).1 (by simp [hacc])
    · exact hbad (hw'.idle i hp).2
    · exact hbad hp
  · intro ep ecs onClose hen hf
    obtain ⟨i, rest, hacc⟩ := hadmits hf
    obtain ⟨x, hx, hold⟩ := hwait.head_oldest hacc
    have hquiet : ∀ ec ∈ ecs, fatal ec = false := fun ec hec => by
      cases hfatal : fatal ec with
      | false => rfl
      | true =>
        have hi : i ∈ w.acceptingSockets := by simp [hacc]
        exact absurd ((hwait.linked i).1 hi) (hen.2.2.2 ⟨ec, hec, hfatal⟩ i (hw.formed.accepting i hi))
    obtain ⟨w', hs, -, h1, h2, h3⟩ := incoming_head hwait ep onClose hacc hx hquiet
    exact ⟨i, x, w', hx, hold, hs, h1, h2, h3⟩

/-- Two sockets wait, and two connections arrive: they go to the sockets in the order these called
`async_accept`, and the firewall refuses a third. -/
theorem accept_queue_two :
    ∃ w, Run AcceptEnabled step {} [.socket, .socket, .bind 0, .bind 1, .asyncAccept 1, .asyncAccept 0,
        .incoming default [] [], .incoming default [.wouldBlock] []] w ∧
      (w.impls 1).utpSocket = some 0 ∧ (w.impls 0).utpSocket = some 1 ∧ w.callbackOnFirewall = true ∧
      ¬ w.Pending 0 .accept := by
  obtain ⟨w, hrun, h1, h0, hf⟩ := exists_run AcceptEnabled step {}
    [.socket, .socket, .bind 0, .bind 1, .asyncAccept 1, .asyncAccept 0, .incoming default [] [],
      .incoming default [.wouldBlock] []]
    (fun w => (w.impls 1).utpSocket = some 0 ∧ (w.impls 0).utpSocket = some 1 ∧ w.callbackOnFirewall = true) (by decide)
  obtain ⟨hlinked, hidle, -⟩ := accept_queue ⟨_, hrun⟩
  refine ⟨w, hrun, h1, h0, hf, fun hp => ?_⟩
  have hnone := (hidle 0 ((hlinked 0).2 hp)).2
  rw [h0] at hnone
  cases hnone

/-- A socket is closed while it waits to accept. It stays in the queue, the firewall lets the next
connection in for it, and `on_accept` finds no handler; that another socket waits does not help. -/
theorem closed_waiter_accepts :
    ∃ w, Run (fun w ev => w.Enabled ev ∧ w.AcceptsIdle ev) step {}
        [.socket, .socket, .bind 0, .bind 1, .asyncAccept 0, .asyncAccept 1, .close 0] w ∧
      0 ∈ w.acceptingSockets ∧ ¬ w.Pending 0 .accept ∧ (w.impls 0).closed = true ∧ w.Pending 1 .accept ∧
      w.Enabled (.incoming default [] []) ∧
      w.step (.incoming default [] []) = .error (.assertion .onAcceptHandler) :=
  ⟨_, run_of_exec rfl, by decide, by decide, rfl, by decide, by decide, rfl⟩

end World

end AsioUtp
