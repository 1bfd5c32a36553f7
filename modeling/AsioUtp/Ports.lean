/-
The ports under the hub.

In `Hub` a port is one of many: its states are made, moved and closed through
`udp_multiplexer` objects, the service decides which port a bind gets, and
the callers' endpoint objects are the same for all. Read at one port, a run
of the hub is a run of `Port` alone (`ports_refine`), so that what holds of
every run of a port holds of each port of a program that never assigns over
an open `udp_multiplexer` and keeps its services consistent.
-/
import AsioUtp.Receives
import AsioUtp.Registry
import AsioUtp.Orphans

namespace AsioUtp.Hub

open Machine

/-- The port of multiplexer `m`, with the endpoint objects as they are. -/
def portAt (h : Hub) (m : Nat) : Port := { h.port m with endpoints := h.endpoints }

/-- Every port has come where it is by its own events. -/
structure Ported (h : Hub) : Prop where
  ports : ∀ m < h.created, Reachable Port.Enabled Port.step {} (h.portAt m)
  /-- A port made now would have. -/
  fresh : Reachable Port.Enabled Port.step {} { endpoints := h.endpoints }
  unmade : ∀ m, h.created ≤ m → h.port m = { alive := false }

theorem ported_init : Ported {} where
  ports m hm := absurd hm (Nat.not_lt_zero m)
  fresh := .init
  unmade _ _ := rfl

variable {h h' : Hub}

theorem Ported.same (hp : Ported h) (hc : h'.created = h.created) (hport : ∀ m, h'.port m = h.port m)
    (he : h'.endpoints = h.endpoints) : Ported h' where
  ports m hm := by
    rw [portAt, hport, he]
    exact hp.ports m (hc ▸ hm)
  fresh := by
    rw [he]
    exact hp.fresh
  unmade m hm := by
    rw [hport]
    exact hp.unmade m (hc ▸ hm)

/-- One port moves on. -/
theorem Ported.setPort (hp : Ported h) {m : Nat} {p : Port} (ev : Port.Event) (hm : m < h.created)
    (hen : (h.portAt m).Enabled ev) (hs : (h.portAt m).step ev = .ok { p with endpoints := h.endpoints }) :
    Ported (h.setPort m p) where
  ports j hj := by
    have hport := port_setPort h m j p
    by_cases hjm : j = m
    · subst hjm
      rw [portAt, hport, if_pos rfl]
      exact (hp.ports j hm).snoc hen hs
    · rw [portAt, hport, if_neg hjm]
      exact hp.ports j hj
  fresh := hp.fresh
  unmade j hj := by
    have hj : h.created ≤ j := hj
    have hjm : j ≠ m := by omega
    rw [port_setPort, if_neg hjm]
    exact hp.unmade j hj

/-- An endpoint object changes, for every port. -/
theorem Ported.endpoints (hp : Ported h) (e : Nat) (v : Option Endpoint) :
    Ported { h with endpoints := Function.update h.endpoints e v } where
  ports m hm := (hp.ports m hm).snoc (show (h.portAt m).Enabled (.setEndpoint e v) from trivial) rfl
  fresh := hp.fresh.snoc (show ({ endpoints := h.endpoints } : Port).Enabled (.setEndpoint e v) from trivial) rfl
  unmade := hp.unmade

theorem Ported.create (hp : Ported h) {i : Impl} (hi : i.port = {}) : Ported (h.create i) where
  ports m hm := by
    have hm : m < h.created + 1 := hm
    rw [portAt, create_port]
    split
    · rw [hi]
      exact hp.fresh
    · next hne => exact hp.ports m (by omega)
  fresh := hp.fresh
  unmade m hm := by
    have hm : h.created + 1 ≤ m := hm
    rw [create_port, if_neg (by omega)]
    exact hp.unmade m (by omega)

/-- What is known of the flags of every port. -/
theorem Ported.roster (hp : Ported h) {m : Nat} (hm : m < h.created) : (h.portAt m).Roster := by
  obtain ⟨evs, hrun⟩ := hp.ports m hm
  exact (Port.run_mailed hrun).2.1

/-- A state with an owner is one of a port that is alive. -/
theorem Ported.owned (hp : Ported h) (hk : Kempt h) {o m k : Nat} (ho : h.stateOf o = some (m, k)) :
    m < h.created ∧ k < (h.port m).opened ∧ (h.port m).alive = true := by
  have hown := (hk.owned m k).2 ⟨o, ho⟩
  obtain ⟨hm, hlt⟩ := hk.opened m k hown
  exact ⟨hm, hlt, ((hp.roster hm).owned k hown).2.2⟩

theorem Ported.attach (hp : Ported h) {o m : Nat} {ex : Option Nat} (hm : m < h.created)
    (ha : (h.port m).alive = true) : Ported (h.attach o ex m) := by
  have hbind : Ported (h.setPort m (h.port m).bind) := hp.setPort .bind hm ha rfl
  exact hbind.same rfl (fun _ => rfl) rfl

theorem release_endpoints (p : Port) (endpoints : Nat → Option Endpoint) (k : Nat) :
    ({ p with endpoints } : Port).release k = { p.release k with endpoints } := by
  have hsame : ({ p with endpoints } : Port).Held k ↔ p.Held k := Iff.rfl
  by_cases hheld : p.Held k
  · rw [Port.release, Port.release, if_pos hheld, if_pos (hsame.2 hheld)]
  · rw [Port.release, Port.release, if_neg hheld, if_neg (mt hsame.1 hheld)]

/-- `close` neither reads nor writes an endpoint object. -/
theorem close_endpoints (p : Port) (endpoints : Nat → Option Endpoint) (k : Nat) :
    ({ p with endpoints } : Port).close k = { p.close k with endpoints } := by
  simp only [Port.close]
  split
  · have hposts : ∀ (q : Port) (call : Option Nat),
        ({ q with endpoints } : Port).postAborted call = { q.postAborted call with endpoints } := fun q call => by
      cases call <;> rfl
    rw [hposts, hposts]
    exact release_endpoints (Port.setState ((p.postAborted _).postAborted _) k _) endpoints k
  · rfl

theorem Ported.close (hp : Ported h) (hk : Kempt h) (o : Nat) : Ported (h.close o) := by
  unfold Hub.close
  split
  · next ex m k hx =>
    obtain ⟨hm, hlt, -⟩ := hp.owned hk (o := o) (m := m) (k := k) (by simp [stateOf, hx])
    have hclose : Ported (h.setPort m ((h.port m).close k)) :=
      hp.setPort (.close k) hm hlt (congrArg Except.ok (close_endpoints (h.port m) h.endpoints k))
    exact hclose.same rfl (fun _ => rfl) rfl
  · exact hp.same rfl (fun _ => rfl) rfl

theorem Ported.destroy (hp : Ported h) (hk : Kempt h) (o : Nat) : Ported (h.destroy o) :=
  (hp.close hk o).same rfl (fun _ => rfl) rfl

theorem Ported.release (hp : Ported h) {m : Nat} (hm : m < h.created) (hfree : h.Unreferenced m) :
    Ported (h.release m) := by
  have hdestroy : Ported (h.setPort m { h.port m with alive := false }) := hp.setPort .destroy hm hfree.1 rfl
  exact hdestroy.same rfl (fun _ => rfl) rfl

/-- A call of a function of one port that is one of its events. -/
theorem Ported.onPort (hp : Ported h) {m : Nat} {f : Port → Except Fault Port} (ev : Port.Event) (hm : m < h.created)
    (hen : (h.portAt m).Enabled ev) (hf : f (h.portAt m) = (h.portAt m).step ev)
    (hends : ∀ p, (h.portAt m).step ev = .ok p → ∃ e v, p.endpoints = Function.update h.endpoints e v)
    (hs : h.onPort m f = .ok h') : Ported h' := by
  simp only [Hub.onPort, Except.bind_ok_iff, Except.pure_ok_iff] at hs
  obtain ⟨p, hstep, rfl⟩ := hs
  have hstep : (h.portAt m).step ev = .ok p := hf ▸ hstep
  obtain ⟨e, v, hev⟩ := hends p hstep
  rw [hev]
  refine ⟨fun j hj => ?_, (hp.endpoints e v).fresh, fun j hj => ?_⟩
  · by_cases hjm : j = m
    · subst hjm
      have hport : Hub.portAt { h.setPort j p with endpoints := Function.update h.endpoints e v } j = p := by
        show ({ (h.setPort j p).port j with endpoints := Function.update h.endpoints e v } : Port) = p
        rw [port_setPort, if_pos rfl, ← hev]
      rw [hport]
      exact (hp.ports j hm).snoc hen hstep
    · have hport : Hub.portAt { h.setPort m p with endpoints := Function.update h.endpoints e v } j =
          Hub.portAt { h with endpoints := Function.update h.endpoints e v } j := by
        show ({ (h.setPort m p).port j with endpoints := Function.update h.endpoints e v } : Port) = _
        rw [port_setPort, if_neg hjm]
        rfl
      rw [hport]
      exact (hp.endpoints e v).ports j hj
  · have hj : h.created ≤ j := hj
    show (h.setPort m p).port j = { alive := false }
    rw [port_setPort, if_neg (by omega)]
    exact hp.unmade j hj

/-! ## The objects -/

theorem Ported.copyConstruct (hp : Ported h) (hk : Kempt h) {o : Nat} (hs : h.copyConstruct o = .ok h') :
    Ported h' := by
  unfold Hub.copyConstruct at hs
  split at hs
  · cases hs
  · cases hs
  · next ex m k hx =>
    simp only [Except.bind_ok_iff, Except.pure_ok_iff] at hs
    obtain ⟨-, -, rfl⟩ := hs
    obtain ⟨hm, -, ha⟩ := hp.owned hk (o := o) (m := m) (k := k) (by simp [stateOf, hx])
    have hmade : Ported { h with madeMultiplexers := h.madeMultiplexers + 1 } := hp.same rfl (fun _ => rfl) rfl
    exact hmade.attach hm ha

theorem abandon_of_none {o : Nat} (ho : h.stateOf o = none) : h.abandon o = h := by simp [abandon, ho]

theorem Ported.moveAssign (hp : Ported h) {o o' : Nat} (hfree : o = o' ∨ h.stateOf o = none) :
    Ported (h.moveAssign o o') := by
  unfold Hub.moveAssign
  split
  · exact hp
  · next hne =>
    rw [abandon_of_none (hfree.resolve_left hne)]
    exact hp.same rfl (fun _ => rfl) rfl

theorem Ported.copyAssign (hp : Ported h) (hk : Kempt h) {o o' : Nat} (ho : h.Live o) (hfree : h.stateOf o = none)
    (hs : h.copyAssign o o' = .ok h') : Ported h' := by
  simp only [Hub.copyAssign, Except.bind_ok_iff, Except.pure_ok_iff] at hs
  obtain ⟨g, hg, rfl⟩ := hs
  obtain ⟨⟨hkg, -⟩, hcopy, hothers⟩ := orderly_copyConstruct hk hg
  have hne : o ≠ h.madeMultiplexers := (hk.made_of_live ho).ne
  have hog : g.Live o := by rw [Live, hothers o hne]; exact ho
  have hfreeg : g.stateOf o = none := by rw [stateOf, hothers o hne]; exact hfree
  exact ((hp.copyConstruct hk hg).moveAssign (.inr hfreeg)).destroy (orderly_moveAssign hog hcopy (.inr hfreeg) hkg).1 _

theorem Ported.bindMultiplexer (hp : Ported h) (hk : Kempt h) {o o' : Nat} (ho : h.Live o)
    (hs : h.bindMultiplexer o o' = .ok h') : Ported h' := by
  unfold Hub.bindMultiplexer at hs
  split at hs
  · have hkc : Kempt { h.close o with ec := h.ec } := ((orderly_close h o).trans (orderly_ec _ h.ec) hk).1
    have hpc : Ported { h.close o with ec := h.ec } := (hp.close hk o).same rfl (fun _ => rfl) rfl
    have hlive : Hub.Live { h.close o with ec := h.ec } o := by
      change ((h.close o).multiplexers o).isSome = true
      unfold Hub.close
      split
      · simp [setMultiplexer]
      · exact ho
    have hfree : Hub.stateOf { h.close o with ec := h.ec } o = none := by
      change (h.close o).stateOf o = none
      rw [close_stateOf, if_pos rfl]
    exact hpc.copyAssign hkc hlive hfree hs
  · next hnone => exact hp.copyAssign hk ho (by simpa using hnone) hs

/-- A multiplexer the service answers is made, and alive. -/
theorem Ported.maybeCreate (hp : Ported h) (hk : Kempt h) {g : Hub} {s c : Nat} {ep : Endpoint} {reply : Bound}
    {found : Option Nat} (hs : h.maybeCreateUdpMultiplexer s c ep reply = some (g, found)) :
    Ported g ∧ ∀ m ∈ found, m < g.created ∧ (g.port m).alive = true := by
  unfold maybeCreateUdpMultiplexer at hs
  split at hs
  · next m _ =>
    cases hs
    refine ⟨hp, fun m' hm' => ?_⟩
    split at hm' <;> cases hm'
    next ha => exact ⟨hk.alive m ha, ha⟩
  · cases reply with
    | thrown => cases hs
    | failed ec =>
      cases hs
      exact ⟨hp.same rfl (fun _ => rfl) rfl, fun m hm => by cases hm⟩
    | «at» ep' =>
      cases hs
      have hec : Ported { h with ec := .success } := hp.same rfl (fun _ => rfl) rfl
      refine ⟨(hec.create (i := { creator := some s, context := c, endpoint := ep', port := {} }) rfl).same rfl
        (fun _ => rfl) rfl, fun m hm => ?_⟩
      cases hm
      refine ⟨Nat.lt_succ_self _, ?_⟩
      show ((Hub.create { h with ec := .success } _).port h.created).alive = true
      rw [create_port, if_pos rfl]

theorem Ported.bindEndpoint (hp : Ported h) (hk : Kempt h) (hr : Registered h) {o : Nat} {ep : Endpoint} {reply : Bound}
    (hos : ∀ c ∈ (h.multiplexers o).bind UdpMultiplexer.ex, h.Answers c reply)
    (hs : h.bindEndpoint o ep reply = .ok h') : Ported h' := by
  simp only [Hub.bindEndpoint, Except.bind_ok_iff, Except.require_ok_iff] at hs
  obtain ⟨-, -, hs⟩ := hs
  split at hs
  · cases hs
    exact hp
  · next c hc =>
    split at hs
    · cases hs
      exact hp
    · next g found hfound =>
      obtain ⟨hg, hmade⟩ := hp.maybeCreate hk hfound
      split at hs
      · cases hs
        exact hg
      · next hec =>
        split at hs <;> cases hs
        · exact absurd (hr.null_error (hos c hc) hfound) (by simpa using hec)
        · next m =>
          obtain ⟨hlt, ha⟩ := hmade m rfl
          exact hg.attach hlt ha

theorem Ported.socketBind (hp : Ported h) (hk : Kempt h) {v : Nat} {ep : Endpoint} {reply : Bound}
    (hs : h.socketBind v ep reply = .ok h') : Ported h' := by
  unfold Hub.socketBind at hs
  split at hs
  · cases hs
  · next x _ =>
    split at hs
    · cases hs
      exact hp.same rfl (fun _ => rfl) rfl
    · split at hs
      · cases hs
        exact hp
      · next g found hfound =>
        obtain ⟨hg, -⟩ := hp.maybeCreate hk hfound
        split at hs
        · cases hs
          exact hg
        · split at hs <;> cases hs
          exact hg.same rfl (fun _ => rfl) rfl

/-! ## The steps -/

theorem endpoints_unchanged {p p' : Port} (h : p'.endpoints = p.endpoints) :
    ∃ e v, p'.endpoints = Function.update p.endpoints e v :=
  ⟨0, p.endpoints 0, by rw [h, Function.update_eq_self]⟩

theorem release_endpoints_eq (p : Port) (k : Nat) : (p.release k).endpoints = p.endpoints := by
  unfold Port.release
  split <;> rfl

theorem finishSend_endpoints (p : Port) (s : Send) (ec : ErrorCode) (size : Nat) :
    (p.finishSend s ec size).endpoints = p.endpoints := by
  rw [Port.finishSend, release_endpoints_eq]
  unfold Port.onSent
  split <;> rfl

/-- A completion writes one endpoint object at most. -/
theorem completion_endpoints {p p' : Port} {ev : Port.Event} (hev : isCompletion ev = true)
    (hs : p.step ev = .ok p') : ∃ e v, p'.endpoints = Function.update p.endpoints e v := by
  cases ev with
  | sent s ec size =>
    cases hs
    refine endpoints_unchanged ?_
    unfold Port.sendCompleted
    split
    · rfl
    · exact finishSend_endpoints p s _ _
  | sendToSignal =>
    refine endpoints_unchanged ?_
    simp only [Port.step, Port.sendToSignal] at hs
    split at hs
    · cases hs
      rfl
    · split at hs <;> cases hs
      rfl
  | sentEnd =>
    cases hs
    refine endpoints_unchanged ?_
    unfold Port.onSentEnd
    split
    · rfl
    · exact finishSend_endpoints _ _ _ _
  | register | flushed =>
    simp only [Port.step, Except.bind_ok_iff, Except.pure_ok_iff] at hs
    obtain ⟨m, -, rfl⟩ := hs
    exact endpoints_unchanged rfl
  | received _ _ _ =>
    simp only [Port.step, Except.bind_ok_iff, Except.pure_ok_iff] at hs
    obtain ⟨-, -, m, -, rfl⟩ := hs
    exact endpoints_unchanged rfl
  | unlink =>
    cases hs
    exact endpoints_unchanged rfl
  | next =>
    simp only [Port.step, Port.flushNext, Except.bind_ok_iff] at hs
    obtain ⟨m, -, hs⟩ := hs
    split at hs
    · simp only [Port.handleRead] at hs
      split at hs
      · cases hs
        exact endpoints_unchanged rfl
      · cases hs
      · split at hs
        · cases hs
        · cases hs
          exact ⟨_, _, rfl⟩
    · cases hs
      exact endpoints_unchanged rfl
  | _ => cases hev

theorem asyncReceiveFrom_endpoints {p p' : Port} {k ep : Nat} {buffers : List (List UInt8)}
    (hs : p.asyncReceiveFrom k ep buffers = .ok p') : p'.endpoints = p.endpoints := by
  simp only [Port.asyncReceiveFrom] at hs
  split at hs
  · simp only [Except.bind_ok_iff, Except.require_ok_iff, Except.pure_ok_iff] at hs
    obtain ⟨-, -, m, -, rfl⟩ := hs
    rfl
  · cases hs
    rfl

theorem Ported.asyncReceiveFrom (hp : Ported h) (hk : Kempt h) {o ep : Nat} {buffers : List (List UInt8)}
    (hep : h.endpoints ep ≠ none) (hs : h.asyncReceiveFrom o ep buffers = .ok h') : Ported h' := by
  unfold Hub.asyncReceiveFrom at hs
  split at hs
  · cases hs
    exact hp.same rfl (fun _ => rfl) rfl
  · next m k ho =>
    simp only [Except.bind_ok_iff] at hs
    obtain ⟨-, -, hs⟩ := hs
    obtain ⟨hm, hlt, -⟩ := hp.owned hk ho
    exact hp.onPort (.asyncReceiveFrom k ep buffers) hm ⟨hlt, hep⟩ rfl
      (fun p hstep => endpoints_unchanged (asyncReceiveFrom_endpoints hstep)) hs

theorem Ported.asyncSendTo (hp : Ported h) (hk : Kempt h) {o dst : Nat} {buffers : List (List UInt8)}
    (hdst : h.endpoints dst ≠ none) (hs : h.asyncSendTo o buffers dst = .ok h') : Ported h' := by
  unfold Hub.asyncSendTo at hs
  split at hs
  · cases hs
    exact hp.same rfl (fun _ => rfl) rfl
  · next m k ho =>
    simp only [Except.bind_ok_iff] at hs
    obtain ⟨-, -, hs⟩ := hs
    obtain ⟨hm, hlt, -⟩ := hp.owned hk ho
    refine hp.onPort (.asyncSendTo k buffers dst) hm ⟨hlt, hdst⟩ rfl
      (fun p hstep => endpoints_unchanged (p := h.portAt m) ?_) hs
    cases hstep
    unfold Port.asyncSendTo
    dsimp only
    split <;> rfl

theorem Ported.inPort (hp : Ported h) {m : Nat} {ev : Port.Event} (hev : isCompletion ev = true)
    (hen : (h.portAt m).Enabled ev) (hs : (h.onPort m fun p => p.step ev) = .ok h') : Ported h' := by
  have hm : m < h.created := by
    by_contra hle
    rw [portAt, hp.unmade m (by omega)] at hen
    cases ev with
    | sent s ec size => cases hen.1
    | sendToSignal | sentEnd => exact hen rfl
    | register | next | flushed => cases hen.1
    | unlink => cases hen
    | received _ _ _ => exact hen.1 rfl
    | _ => cases hev
  exact hp.onPort ev hm hen rfl (fun p hstep => completion_endpoints hev hstep) hs

theorem ported_step {ev : Event} (hp : Ported h) (hk : Kempt h) (hr : Registered h) (hen : h.Possible ev)
    (hc : h.AssignsFree ev) (hs : h.step ev = .ok h') : Ported h' := by
  have hclose : ∀ v, Ported (h.socketClose v) := fun v => by
    unfold Hub.socketClose
    split
    · exact hp
    · split
      · exact hp.same rfl (fun _ => rfl) rfl
      · exact hp
  cases ev with
  | construct ex => cases hs; exact hp.same rfl (fun _ => rfl) rfl
  | copyConstruct o => exact hp.copyConstruct hk hs
  | moveConstruct o => cases hs; exact hp.same rfl (fun _ => rfl) rfl
  | copyAssign o o' => exact hp.copyAssign hk hen.1 hc hs
  | moveAssign o o' => cases hs; exact hp.moveAssign hc
  | bindEndpoint o ep ec reply =>
    have hpe : Ported { h with ec } := hp.same rfl (fun _ => rfl) rfl
    exact hpe.bindEndpoint (orderly_ec h ec hk).1 (hr.same (sameRegistry_of_eq rfl rfl rfl)) hen.2 hs
  | bindSocket o c ep =>
    simp only [step, bindSocket, Except.bind_ok_iff, Except.require_ok_iff, Except.pure_ok_iff] at hs
    obtain ⟨-, -, rfl⟩ := hs
    refine (hp.create (i := { context := c, endpoint := ep, port := {} }) rfl).attach (Nat.lt_succ_self _) ?_
    rw [create_port, if_pos rfl]
  | bindMultiplexer o o' => exact hp.bindMultiplexer hk hen.1 hs
  | asyncReceiveFrom o ep buffers => exact hp.asyncReceiveFrom hk hen.2 hs
  | asyncSendTo o buffers dst => exact hp.asyncSendTo hk hen.2 hs
  | close o ec =>
    cases hs
    have hpe : Ported { h with ec } := hp.same rfl (fun _ => rfl) rfl
    exact hpe.close (orderly_ec h ec hk).1 o
  | destroy o => cases hs; exact hp.destroy hk o
  | socket c => cases hs; exact hp.same rfl (fun _ => rfl) rfl
  | socketBind v ep ec reply =>
    have hpe : Ported { h with ec } := hp.same rfl (fun _ => rfl) rfl
    exact hpe.socketBind (orderly_ec h ec hk).1 hs
  | socketBindMultiplexer v o ec =>
    simp only [step, socketBindMultiplexer] at hs
    split at hs
    · cases hs
    · split at hs
      · cases hs
        exact hp.same rfl (fun _ => rfl) rfl
      · split at hs
        · cases hs
        · simp only [Except.bind_ok_iff, Except.pure_ok_iff] at hs
          obtain ⟨-, -, rfl⟩ := hs
          exact hp.same rfl (fun _ => rfl) rfl
  | socketMoveConstruct v => cases hs; exact hp.same rfl (fun _ => rfl) rfl
  | socketMoveAssign v v' =>
    simp only [step, socketMoveAssign] at hs
    split at hs
    · split at hs
      · cases hs
        exact hclose v
      · split at hs <;> cases hs
        exact (hclose v).same rfl (fun _ => rfl) rfl
    · cases hs
  | socketClose v => cases hs; exact hclose v
  | socketDestroy v => cases hs; exact (hclose v).same rfl (fun _ => rfl) rfl
  | libraryClose v => cases hs; exact hp.same rfl (fun _ => rfl) rfl
  | setEndpoint e ep => cases hs; exact hp.endpoints e ep
  | inPort m ev => exact hp.inPort hen.1 hen.2 hs
  | report m ep =>
    cases hs
    refine hp.same rfl (fun m' => ?_) rfl
    by_cases hm : m' = m <;> simp [port, hm]
  | release m => cases hs; exact hp.release hen.1 hen.2

/-- The steps the result is about: nothing is assigned over, and the services are consistent. -/
def Kept (h : Hub) (ev : Event) : Prop := h.Enabled ev ∧ h.AssignsFree ev ∧ h.Consistent ev

instance (h : Hub) (ev : Event) : Decidable (h.Kept ev) := inferInstanceAs (Decidable (_ ∧ _ ∧ _))

end AsioUtp.Hub
