/-
One datagram, handed to everyone who is registered.

`flush_handlers` works on a list it has moved out, while the handlers it calls
register and unlink entries, themselves among them. The log of a run says who
was called with what (`calls`); and at every moment the entries called and
those still to be called are, in order, entries that were registered when the
flush began (`Fans`). The UDP socket is open throughout (see `Multiplexer.lean`),
so that a receive that completes as aborted is handed to nobody.
-/
import AsioUtp.MultiplexerFacts

namespace AsioUtp

/-- A call of an entry's handler, with its arguments. -/
structure HandlerCall (ι : Type) where
  entry : ι
  ec : ErrorCode
  endpoint : Endpoint
  data : List UInt8
  size : Nat
  deriving Repr, DecidableEq

namespace Multiplexer

open Machine

variable {ι : Type} [DecidableEq ι]

/-! ## The log of a run -/

/-- Whom the event calls. -/
def callOf (m : Multiplexer ι) : Event ι → List (HandlerCall ι)
  | .next =>
    match m.flushing with
    | some ⟨ec, size, e :: _⟩ => [⟨e, ec, m.rxEndpoint, m.rxBuffer, size⟩]
    | _ => []
  | _ => []

/-- The calls of the events from `m` on, in order. -/
def calls (m : Multiplexer ι) : List (Event ι) → List (HandlerCall ι)
  | [] => []
  | ev :: evs =>
    m.callOf ev ++ match m.step ev with
      | .ok m' => calls m' evs
      | .error _ => []

/-- The entries called. -/
def called (m : Multiplexer ι) (evs : List (Event ι)) : List ι := (m.calls evs).map HandlerCall.entry

/-- The entries the events register and do not unlink afterwards, in order. -/
def registeredIn (evs : List (Event ι)) : List ι :=
  evs.foldl (fun l ev => match ev with
    | .register e => l ++ [e]
    | .unlink e => l.erase e
    | _ => l) []

/-- `e` is unlinked before it has been called. -/
def UnlinkedFirst (m : Multiplexer ι) (evs : List (Event ι)) (e : ι) : Prop :=
  ∃ evs₁ evs₂, evs = evs₁ ++ .unlink e :: evs₂ ∧ e ∉ m.called evs₁

/-- The events of a flush before its end. -/
def InFlush (m : Multiplexer ι) (ev : Event ι) : Prop := m.Enabled ev ∧ ev ≠ .flushed

instance (m : Multiplexer ι) (ev : Event ι) : Decidable (m.InFlush ev) := inferInstanceAs (Decidable (_ ∧ _))

theorem calls_snoc {ok : Multiplexer ι → Event ι → Prop} {m m' : Multiplexer ι} {evs : List (Event ι)}
    (h : Run ok step m evs m') (ev : Event ι) : m.calls (evs ++ [ev]) = m.calls evs ++ m'.callOf ev := by
  induction h with
  | nil =>
    simp only [List.nil_append, calls]
    split <;> simp
  | cons _ hs _ ih =>
    simp only [List.cons_append, calls, hs]
    rw [ih, List.append_assoc]

theorem called_snoc {ok : Multiplexer ι → Event ι → Prop} {m m' : Multiplexer ι} {evs : List (Event ι)}
    (h : Run ok step m evs m') (ev : Event ι) :
    m.called (evs ++ [ev]) = m.called evs ++ (m'.callOf ev).map HandlerCall.entry := by
  rw [called, calls_snoc h, List.map_append, called]

omit [DecidableEq ι] in
theorem snoc_eq_append_cons {evs evs₁ evs₂ : List (Event ι)} {ev ev' : Event ι}
    (h : evs ++ [ev] = evs₁ ++ ev' :: evs₂) :
    ev = ev' ∧ evs = evs₁ ∨ ∃ evs₂', evs = evs₁ ++ ev' :: evs₂' := by
  rcases List.eq_nil_or_concat evs₂ with rfl | ⟨evs₂', ev'', rfl⟩
  · obtain ⟨hevs, hev⟩ := List.append_inj' h rfl
    exact .inl ⟨List.singleton_inj.1 hev, hevs⟩
  · rw [List.concat_eq_append, ← List.cons_append, ← List.append_assoc] at h
    exact .inr ⟨evs₂', (List.append_inj' h rfl).1⟩

theorem unlinkedFirst_snoc {m : Multiplexer ι} {evs : List (Event ι)} {ev : Event ι} {e : ι} :
    m.UnlinkedFirst (evs ++ [ev]) e ↔ m.UnlinkedFirst evs e ∨ ev = .unlink e ∧ e ∉ m.called evs := by
  constructor
  · rintro ⟨evs₁, evs₂, heq, hnot⟩
    rcases snoc_eq_append_cons heq with ⟨hev, rfl⟩ | ⟨evs₂', rfl⟩
    · exact .inr ⟨hev, hnot⟩
    · exact .inl ⟨evs₁, evs₂', rfl, hnot⟩
  · rintro (⟨evs₁, evs₂, rfl, hnot⟩ | ⟨rfl, hnot⟩)
    · exact ⟨evs₁, evs₂ ++ [ev], by simp, hnot⟩
    · exact ⟨evs, [], rfl, hnot⟩

theorem unlink_lists (m : Multiplexer ι) (e : ι) :
    (m.unlink e).recvHandlers = m.recvHandlers.erase e ∧
      (m.unlink e).flushing = m.flushing.map (fun f => { f with rest := f.rest.erase e }) ∧
      (m.unlink e).rxEndpoint = m.rxEndpoint ∧ (m.unlink e).rxBuffer = m.rxBuffer := by
  unfold unlink
  split
  · obtain ⟨hl, hf, -, -⟩ := onRecvEntryUnlinked_lists (m.remove e)
    refine ⟨hl, hf, ?_, ?_⟩ <;> (unfold onRecvEntryUnlinked; split <;> rfl)
  · next hnot =>
    obtain ⟨hreg, hpend⟩ := not_or.1 hnot
    refine ⟨(List.erase_of_not_mem hreg).symm, ?_, rfl, rfl⟩
    cases hf : m.flushing with
    | none => rfl
    | some f =>
      have hrest : e ∉ f.rest := by simpa [pending, hf] using hpend
      simp [List.erase_of_not_mem hrest]

/-! ## A flush under way -/

/-- What holds in `m`, when `evs` have happened since the flush of `f` began in `m₀`. -/
structure Fans (m₀ : Multiplexer ι) (f : Flush ι) (evs : List (Event ι)) (m : Multiplexer ι) : Prop where
  sound : Sound m
  flushing : m.flushing = some { f with rest := m.pending }
  received : m.rxEndpoint = m₀.rxEndpoint ∧ m.rxBuffer = m₀.rxBuffer
  registered : m.recvHandlers = registeredIn evs
  /-- Who has been called and who will be, in the order of registration. -/
  order : (m₀.called evs ++ m.pending).Sublist f.rest
  turns : evs.count .next = (m₀.called evs).length
  arguments : ∀ c ∈ m₀.calls evs, c.ec = f.ec ∧ c.endpoint = m₀.rxEndpoint ∧ c.data = m₀.rxBuffer ∧ c.size = f.size
  left : ∀ e ∈ f.rest, e ∈ m₀.called evs ∨ e ∈ m.pending ∨ m₀.UnlinkedFirst evs e
  gone : ∀ e, m₀.UnlinkedFirst evs e → e ∉ m₀.called evs ∧ e ∉ m.pending

variable {m₀ m m' : Multiplexer ι} {f : Flush ι} {evs : List (Event ι)}

theorem fans_start (hm : Sound m₀) (hf : m₀.flushing = some f) (hreg : m₀.recvHandlers = []) : Fans m₀ f [] m₀ where
  sound := hm
  flushing := by simp [pending, hf]
  received := ⟨rfl, rfl⟩
  registered := hreg
  order := by simp [called, calls, pending, hf]
  turns := rfl
  arguments := by simp [calls]
  left e he := .inr (.inl (by simpa [pending, hf] using he))
  gone := by simp [UnlinkedFirst]

theorem called_same {ok : Multiplexer ι → Event ι → Prop} (hrun : Run ok step m₀ evs m) (ev : Event ι)
    (hev : m.callOf ev = []) : m₀.calls (evs ++ [ev]) = m₀.calls evs ∧ m₀.called (evs ++ [ev]) = m₀.called evs := by
  rw [called_snoc hrun, calls_snoc hrun, hev]
  simp

theorem Fans.register (h : Fans m₀ f evs m) (hrun : Run InFlush step m₀ evs m) {e : ι} (he : ¬ m.Linked e)
    (hs : m.registerRecvHandler e = .ok m') : Fans m₀ f (evs ++ [.register e]) m' := by
  obtain ⟨hcalls, hcalled⟩ := called_same hrun (.register e) rfl
  have hsound := sound_register h.sound he hs
  have hflush := flushing_register he hs
  have hpending : m'.pending = m.pending := by rw [pending, hflush, pending]
  have hlists : m'.recvHandlers = m.recvHandlers ++ [e] ∧ m'.rxEndpoint = m.rxEndpoint ∧ m'.rxBuffer = m.rxBuffer := by
    rw [registerRecvHandler_eq he] at hs
    cases hs
    split <;> exact ⟨rfl, rfl, rfl⟩
  have hfirst : ∀ x, m₀.UnlinkedFirst (evs ++ [.register e]) x ↔ m₀.UnlinkedFirst evs x := fun x => by
    rw [unlinkedFirst_snoc]
    simp
  refine ⟨hsound, ?_, ?_, ?_, ?_, ?_, ?_, fun x hx => ?_, fun x hx => ?_⟩
  · rw [hflush, hpending, h.flushing]
  · rw [hlists.2.1, hlists.2.2]
    exact h.received
  · rw [hlists.1, h.registered]
    simp [registeredIn]
  · rw [hcalled, hpending]
    exact h.order
  · rw [hcalled, ← h.turns]
    simp
  · rw [hcalls]
    exact h.arguments
  · rw [hcalled, hpending, hfirst]
    exact h.left x hx
  · rw [hcalled, hpending]
    exact h.gone x ((hfirst x).1 hx)

theorem Fans.unlink (h : Fans m₀ f evs m) (hrun : Run InFlush step m₀ evs m) (e : ι) :
    Fans m₀ f (evs ++ [.unlink e]) (m.unlink e) := by
  obtain ⟨hcalls, hcalled⟩ := called_same hrun (.unlink e) rfl
  obtain ⟨hreg, hflush, hep, hbuf⟩ := unlink_lists m e
  have hpending : (m.unlink e).pending = m.pending.erase e := by
    rw [pending, hflush, h.flushing]
    rfl
  have hnodup : m.pending.Nodup := (List.nodup_append.1 h.sound.nodup).2.1
  refine ⟨sound_unlink h.sound, ?_, ?_, ?_, ?_, ?_, ?_, fun x hx => ?_, fun x hx => ?_⟩
  · rw [hflush, hpending, h.flushing]
    rfl
  · rw [hep, hbuf]
    exact h.received
  · rw [hreg, h.registered]
    simp [registeredIn]
  · rw [hcalled, hpending]
    exact ((List.erase_sublist).append_left _).trans h.order
  · rw [hcalled, ← h.turns]
    simp
  · rw [hcalls]
    exact h.arguments
  · rw [hcalled, hpending, unlinkedFirst_snoc]
    by_cases hc : x ∈ m₀.called evs
    · exact .inl hc
    · rcases h.left x hx with hcalled | hx | hx
      · exact absurd hcalled hc
      · by_cases hxe : x = e
        · subst hxe
          exact .inr (.inr (.inr ⟨rfl, hc⟩))
        · exact .inr (.inl ((List.mem_erase_of_ne hxe).2 hx))
      · exact .inr (.inr (.inl hx))
  · rw [hcalled, hpending]
    rcases unlinkedFirst_snoc.1 hx with hx | ⟨hev, hx⟩
    · exact ⟨(h.gone x hx).1, fun hmem => (h.gone x hx).2 (List.mem_of_mem_erase hmem)⟩
    · cases hev
      exact ⟨hx, hnodup.not_mem_erase⟩

theorem Fans.next (h : Fans m₀ f evs m) (hrun : Run InFlush step m₀ evs m) (hen : m.pending ≠ [])
    (hs : m.flushNext (fun _ => true) = .ok m') : Fans m₀ f (evs ++ [.next]) m' := by
  obtain ⟨e, rest, hcons⟩ := List.exists_cons_of_ne_nil hen
  have hflush := h.flushing
  rw [hcons] at hflush
  have hm' : m' = { m with flushing := some { f with rest := rest } } := by
    simp only [flushNext, hflush, Except.require, if_true, Except.ok_bind] at hs
    cases hs
    rfl
  have hcall : m.callOf .next = [⟨e, f.ec, m.rxEndpoint, m.rxBuffer, f.size⟩] := by
    simp only [callOf, hflush]
  have hpending : m'.pending = rest := by rw [hm']; rfl
  have hcalled : m₀.called (evs ++ [.next]) = m₀.called evs ++ [e] := by
    rw [called_snoc hrun, hcall]
    rfl
  have hfirst : ∀ x, m₀.UnlinkedFirst (evs ++ [.next]) x ↔ m₀.UnlinkedFirst evs x := fun x => by
    rw [unlinkedFirst_snoc]
    simp
  refine ⟨sound_next h.sound hs, ?_, ?_, ?_, ?_, ?_, ?_, fun x hx => ?_, fun x hx => ?_⟩
  · rw [hpending, hm']
  · rw [hm']
    exact h.received
  · rw [hm', h.registered]
    simp [registeredIn]
  · rw [hcalled, hpending, List.append_assoc]
    have horder := h.order
    rw [hcons] at horder
    exact horder
  · rw [hcalled, List.length_append, ← h.turns]
    simp
  · intro c hc
    rw [calls_snoc hrun, hcall, List.mem_append, List.mem_singleton] at hc
    rcases hc with hc | rfl
    · exact h.arguments c hc
    · exact ⟨rfl, h.received.1, h.received.2, rfl⟩
  · rw [hcalled, hpending, hfirst]
    rcases h.left x hx with hx | hx | hx
    · exact .inl (List.mem_append_left _ hx)
    · rw [hcons] at hx
      rcases List.mem_cons.1 hx with rfl | hx
      · exact .inl (by simp)
      · exact .inr (.inl hx)
    · exact .inr (.inr hx)
  · rw [hcalled, hpending]
    obtain ⟨hnot, hnot'⟩ := h.gone x ((hfirst x).1 hx)
    rw [hcons, List.mem_cons, not_or] at hnot'
    refine ⟨fun hmem => ?_, hnot'.2⟩
    rcases List.mem_append.1 hmem with hmem | hmem
    · exact hnot hmem
    · exact hnot'.1 (List.mem_singleton.1 hmem)

/-- **Every event of a flush keeps to the snapshot.** -/
theorem Fans.step (h : Fans m₀ f evs m) (hrun : Run InFlush Multiplexer.step m₀ evs m) {ev : Event ι}
    (hev : m.InFlush ev) (hs : m.step ev = .ok m') : Fans m₀ f (evs ++ [ev]) m' := by
  obtain ⟨hen, hne⟩ := hev
  cases ev with
  | register e => exact h.register hrun hen hs
  | unlink e =>
    cases hs
    exact h.unlink hrun e
  | received ec ep data =>
    have hnone : m.flushing = none := hen.2
    rw [h.flushing] at hnone
    cases hnone
  | next => exact h.next hrun hen hs
  | flushed => exact absurd rfl hne

theorem Fans.run (h : Fans m₀ f [] m₀) (hrun : Run InFlush Multiplexer.step m₀ evs m) : Fans m₀ f evs m :=
  Run.induction_snoc (fun evs m => Fans m₀ f evs m) h
    (fun _ _ _ _ hrun hfans hev hs => hfans.step hrun hev hs) hrun

/-- Nobody comes to the list of a flush, and only those on it are called. -/
theorem inFlush_pending {ev : Event ι} (hen : m.InFlush ev) (hf : m.flushing ≠ none) (hs : m.step ev = .ok m') :
    m'.pending.Sublist m.pending ∧ ∀ c ∈ m.callOf ev, c.entry ∈ m.pending := by
  cases ev with
  | register e =>
    have hflush := flushing_register hen.1 hs
    rw [pending, hflush, pending]
    exact ⟨List.Sublist.refl _, by simp [callOf]⟩
  | unlink e =>
    cases hs
    obtain ⟨-, hflush, -, -⟩ := unlink_lists m e
    refine ⟨?_, by simp [callOf]⟩
    rw [pending, hflush, pending]
    cases m.flushing with
    | none => exact List.Sublist.refl _
    | some f => exact List.erase_sublist
  | received ec ep data => exact absurd hen.1.2 hf
  | next =>
    obtain ⟨e, rest, hcons⟩ := List.exists_cons_of_ne_nil hen.1
    obtain ⟨⟨ec, size, rest'⟩, hflush⟩ := Option.ne_none_iff_exists'.1 hf
    have hrest : rest' = e :: rest := by simpa [pending, hflush] using hcons
    subst hrest
    simp only [step, flushNext, hflush, Except.require, if_true, Except.ok_bind] at hs
    cases hs
    simp [callOf, hflush, pending]
  | flushed => exact absurd rfl hen.2

/-- Who is registered in the middle of a flush is not called by it any more. -/
theorem not_called_again (hm : Fans m₀ f [] m₀) (hrun : Run InFlush step m₀ evs m) {evs₁ evs₂ : List (Event ι)}
    {e : ι} (heq : evs = evs₁ ++ .register e :: evs₂) :
    (m₀.called evs).count e = (m₀.called evs₁).count e := by
  suffices h : ∀ evs₁ e evs₂, evs = evs₁ ++ .register e :: evs₂ →
      e ∉ m.pending ∧ (m₀.called evs).count e = (m₀.called evs₁).count e from (h evs₁ e evs₂ heq).2
  clear heq
  refine Run.induction_snoc (fun evs m => ∀ evs₁ e evs₂, evs = evs₁ ++ .register e :: evs₂ →
    e ∉ m.pending ∧ (m₀.called evs).count e = (m₀.called evs₁).count e) (by simp) ?_ hrun
  intro evs m ev m' hrun ih hen hs evs₁ e evs₂ heq
  have hflush : m.flushing ≠ none := by simp [(hm.run hrun).flushing]
  obtain ⟨hsub, hcalls⟩ := inFlush_pending hen hflush hs
  rcases snoc_eq_append_cons heq with ⟨rfl, rfl⟩ | ⟨evs₂', heq⟩
  · have hnot : e ∉ m.pending := fun hmem => hen.1 (.inr hmem)
    refine ⟨fun hmem => hnot (hsub.subset hmem), ?_⟩
    rw [(called_same hrun (.register e) rfl).2]
  · obtain ⟨hnot, hcount⟩ := ih evs₁ e evs₂' heq
    refine ⟨fun hmem => hnot (hsub.subset hmem), ?_⟩
    have hzero : ((m.callOf ev).map HandlerCall.entry).count e = 0 := by
      rw [List.count_eq_zero]
      intro hmem
      obtain ⟨c, hc, rfl⟩ := List.mem_map.1 hmem
      exact hnot (hcalls c hc)
    rw [called_snoc hrun, List.count_append, hzero, hcount, Nat.add_zero]

/-! ## The theorem -/

theorem received_fans {m : Multiplexer ι} {ec : ErrorCode} {ep : Endpoint} {data : List UInt8} (hm : Sound m)
    (hen : m.Enabled (.received ec ep data)) (hgo : ¬ (ec = .operationAborted ∧ m.udpSocket.isOpen = true)) :
    ∃ m₀, m.step (.received ec ep data) = .ok m₀ ∧ m₀.rxEndpoint = ep ∧ m₀.rxBuffer = data ∧
      Fans m₀ ⟨ec, if ec.isError then 0 else data.length, m.recvHandlers⟩ [] m₀ := by
  obtain ⟨hrec, hnone⟩ := id hen
  have hreceiving : (m.receiveCompleted ep data).isReceiving = true := by
    cases hm.idle hnone with
    | stopped _ h2 _ => exact absurd h2 hrec
    | receiving _ h1 _ _ => exact h1
  have hstep : m.step (.received ec ep data) = .ok ((m.receiveCompleted ep data).flushHandlers ec data.length) := by
    rw [step, onReceive_eq hreceiving, if_neg (by exact hgo)]
  have hsound := sound_step hm hen hstep
  exact ⟨_, hstep, rfl, rfl, fans_start hsound rfl rfl⟩

/-- **Datagram fan-out is a snapshot.** However the handlers it calls register and unlink entries, `flush_handlers`
calls those that were registered when it began and were not unlinked before their turn, each once and in order,
all with the same error code, endpoint and data, and with size 0 on error. It has no more turns than there were
entries, and always a next one or its end. Nobody who registers meanwhile is called by it; and in the end exactly
those are registered who registered meanwhile and were not unlinked since, in order. -/
theorem flush_snapshot {es : List (Event ι)} {m : Multiplexer ι} (h : Run Enabled step {} es m) {ec : ErrorCode}
    {ep : Endpoint} {data : List UInt8} (hen : m.Enabled (.received ec ep data))
    (hgo : ¬ (ec = .operationAborted ∧ m.udpSocket.isOpen = true)) :
    ∃ m₀, m.step (.received ec ep data) = .ok m₀ ∧ ∀ evs m₁, Run InFlush step m₀ evs m₁ →
      (∀ c ∈ m₀.calls evs, c.ec = ec ∧ c.endpoint = ep ∧ c.data = data ∧
        c.size = if ec.isError then 0 else data.length) ∧
      (m₀.called evs).Sublist m.recvHandlers ∧ (m₀.called evs).Nodup ∧
      evs.count .next + m₁.pending.length ≤ m.recvHandlers.length ∧
      (m₁.pending ≠ [] → m₁.InFlush .next ∧ ∃ m₂, m₁.step .next = .ok m₂) ∧
      (∀ evs₁ e evs₂, evs = evs₁ ++ .register e :: evs₂ → (m₀.called evs).count e = (m₀.called evs₁).count e) ∧
      (m₁.pending = [] →
        (∀ e, e ∈ m₀.called evs ↔ e ∈ m.recvHandlers ∧ ¬ m₀.UnlinkedFirst evs e) ∧
        m₁.Enabled .flushed ∧ ∃ m₂, m₁.step .flushed = .ok m₂ ∧ m₂.flushing = none ∧
          m₂.recvHandlers = registeredIn evs) := by
  obtain ⟨m₀, hstep, hep, hdata, hstart⟩ := received_fans (reachable_sound h) hen hgo
  have hnodup : m.recvHandlers.Nodup := (List.nodup_append.1 (reachable_sound h).nodup).1
  refine ⟨m₀, hstep, fun evs m₁ hrun => ?_⟩
  have hfans := hstart.run hrun
  have hcalled : (m₀.called evs).Sublist m.recvHandlers := (List.sublist_append_left _ _).trans hfans.order
  refine ⟨fun c hc => ?_, hcalled, hcalled.nodup hnodup, ?_, fun hne => ?_, fun evs₁ e evs₂ heq => ?_, fun hnil => ?_⟩
  · obtain ⟨h1, h2, h3, h4⟩ := hfans.arguments c hc
    exact ⟨h1, h2.trans hep, h3.trans hdata, h4⟩
  · have hlen := hfans.order.length_le
    rw [List.length_append, ← hfans.turns] at hlen
    exact hlen
  · exact ⟨⟨hne, by simp⟩, step_ok hfans.sound hne⟩
  · exact not_called_again hstart hrun heq
  · have hend : m₁.Enabled .flushed := ⟨by simp [hfans.flushing], hnil⟩
    obtain ⟨m₂, hok⟩ := step_ok hfans.sound hend
    obtain ⟨hflushing, hreg⟩ := flushed_eq hok
    refine ⟨fun e => ⟨fun hmem => ⟨hcalled.subset hmem, fun hfirst => (hfans.gone e hfirst).1 hmem⟩, ?_⟩, hend, m₂,
      hok, hflushing, hreg.trans hfans.registered⟩
    rintro ⟨hmem, hnot⟩
    rcases hfans.left e hmem with hmem | hmem | hfirst
    · exact hmem
    · rw [hnil] at hmem
      cases hmem
    · exact absurd hfirst hnot

/-- Entries 0, 1 and 2 are registered. Called, 0 registers itself again and a new entry 3, and unlinks 1, which is
then not called; and 2 unlinks 3. -/
theorem flush_snapshot_reregister :
    ∃ m m₀ m₁ : Multiplexer Nat, Run Enabled step {} [.register 0, .register 1, .register 2] m ∧
      m.step (.received .success default [7]) = .ok m₀ ∧
      Run InFlush step m₀ [.next, .register 0, .register 3, .unlink 1, .next, .unlink 3] m₁ ∧
      m₀.called [.next, .register 0, .register 3, .unlink 1, .next, .unlink 3] = [0, 2] ∧
      ∃ m₂, m₁.step .flushed = .ok m₂ ∧ m₂.recvHandlers = [0] := by
  obtain ⟨m, hrun, hen, hgo, m₀, hm₀, hcalled, m₁, hm₁, hnil⟩ := exists_run Enabled step ({} : Multiplexer Nat)
    [.register 0, .register 1, .register 2]
    (fun m => m.Enabled (.received .success default [7]) ∧
      ¬ (ErrorCode.success = .operationAborted ∧ m.udpSocket.isOpen = true) ∧
      ∃ m₀ ∈ (m.step (.received .success default [7])).toOption,
      m₀.called [.next, .register 0, .register 3, .unlink 1, .next, .unlink 3] = [0, 2] ∧
      ∃ m₁ ∈ exec InFlush step m₀ [.next, .register 0, .register 3, .unlink 1, .next, .unlink 3], m₁.pending = [])
    (by decide)
  obtain ⟨m₀', hstep, hall⟩ := flush_snapshot hrun hen hgo
  rw [hstep] at hm₀
  cases hm₀
  obtain ⟨-, -, -, -, -, -, hend⟩ := hall _ m₁ (run_of_exec hm₁)
  obtain ⟨-, -, m₂, hflushed, -, hreg⟩ := hend hnil
  exact ⟨m, m₀, m₁, hrun, hstep, run_of_exec hm₁, hcalled, m₂, hflushed, hreg⟩

end Multiplexer

end AsioUtp
