/-
The registry of a service.

`registry_exact`: as long as no multiplexer is made for an executor of
another context than the service's, and none with a supplied socket is
destroyed while it reports the endpoint of one the service made, the map of a
service has exactly its live multiplexers, each under its local endpoint. A
bind to such an endpoint then finds the multiplexer, and no bind finds a null
one.

Both conditions matter: the destructor erases by endpoint value, whoever made
the multiplexer, and from the service of the executor's context, whichever
service it was entered in (`registry_astray`).
-/
import AsioUtp.States

namespace AsioUtp.Hub

open Machine

/-! ## What the registry depends on -/

/-- The maps of the services and what is behind their entries are the same in `h'`. -/
structure SameRegistry (h h' : Hub) : Prop where
  services : h'.services = h.services
  created : h'.created = h.created
  alive : ∀ m, (h'.port m).alive = (h.port m).alive
  creator : ∀ m, (h'.impls m).creator = (h.impls m).creator
  context : ∀ m, (h'.impls m).context = (h.impls m).context
  endpoint : ∀ m, (h'.impls m).endpoint = (h.impls m).endpoint

theorem SameRegistry.trans {h h' h'' : Hub} (s : SameRegistry h h') (s' : SameRegistry h' h'') :
    SameRegistry h h'' where
  services := s'.services.trans s.services
  created := s'.created.trans s.created
  alive m := (s'.alive m).trans (s.alive m)
  creator m := (s'.creator m).trans (s.creator m)
  context m := (s'.context m).trans (s.context m)
  endpoint m := (s'.endpoint m).trans (s.endpoint m)

theorem sameRegistry_of_eq {h h' : Hub} (hi : h'.impls = h.impls) (hc : h'.created = h.created)
    (hs : h'.services = h.services) : SameRegistry h h' := by
  refine ⟨hs, hc, ?_, ?_, ?_, ?_⟩ <;> intro m <;> simp [port, hi]

theorem sameRegistry_setPort {h : Hub} {m : Nat} {p : Port} (hp : p.alive = (h.port m).alive) :
    SameRegistry h (h.setPort m p) := by
  refine ⟨rfl, rfl, fun j => ?_, fun j => ?_, fun j => ?_, fun j => ?_⟩ <;> by_cases hj : j = m <;>
    simp [port, setPort, hj]
  exact hp

theorem sameRegistry_attach (h : Hub) (o : Nat) (ex : Option Nat) (m : Nat) : SameRegistry h (h.attach o ex m) := by
  have hbind : SameRegistry h (h.setPort m (h.port m).bind) := sameRegistry_setPort rfl
  exact hbind.trans (sameRegistry_of_eq rfl rfl rfl)

theorem sameRegistry_abandon (h : Hub) (o : Nat) : SameRegistry h (h.abandon o) := by
  unfold abandon
  split
  · exact sameRegistry_of_eq rfl rfl rfl
  · next m k _ => exact sameRegistry_setPort (Port.release_alive _ _)

theorem sameRegistry_moveAssign (h : Hub) (o o' : Nat) : SameRegistry h (h.moveAssign o o') := by
  unfold moveAssign
  split
  · exact sameRegistry_of_eq rfl rfl rfl
  · exact (sameRegistry_abandon h o).trans (sameRegistry_of_eq rfl rfl rfl)

theorem sameRegistry_close (h : Hub) (o : Nat) : SameRegistry h (h.close o) := by
  unfold close
  split
  · next ex m k _ => exact (sameRegistry_setPort (Port.close_alive _ _)).trans (sameRegistry_of_eq rfl rfl rfl)
  · exact sameRegistry_of_eq rfl rfl rfl

theorem sameRegistry_destroy (h : Hub) (o : Nat) : SameRegistry h (h.destroy o) :=
  (sameRegistry_close h o).trans (sameRegistry_of_eq rfl rfl rfl)

theorem sameRegistry_copyConstruct {h h' : Hub} {o : Nat} (hs : h.copyConstruct o = .ok h') :
    SameRegistry h h' := by
  unfold copyConstruct at hs
  split at hs
  · cases hs
  · cases hs
  · simp only [Except.bind_ok_iff, Except.pure_ok_iff] at hs
    obtain ⟨-, -, rfl⟩ := hs
    have hmade : SameRegistry h { h with madeMultiplexers := h.madeMultiplexers + 1 } :=
      sameRegistry_of_eq rfl rfl rfl
    exact hmade.trans (sameRegistry_attach _ _ _ _)

theorem sameRegistry_copyAssign {h h' : Hub} {o o' : Nat} (hs : h.copyAssign o o' = .ok h') :
    SameRegistry h h' := by
  simp only [copyAssign, Except.bind_ok_iff, Except.pure_ok_iff] at hs
  obtain ⟨g, hg, rfl⟩ := hs
  exact ((sameRegistry_copyConstruct hg).trans (sameRegistry_moveAssign _ _ _)).trans (sameRegistry_destroy _ _)

theorem sameRegistry_onPort {h h' : Hub} {m : Nat} {f : Port → Except Fault Port}
    (hf : ∀ p p', f p = .ok p' → p'.alive = p.alive) (hs : h.onPort m f = .ok h') : SameRegistry h h' := by
  simp only [onPort, Except.bind_ok_iff, Except.pure_ok_iff] at hs
  obtain ⟨p, hp, rfl⟩ := hs
  have ha := hf _ _ hp
  have hset : SameRegistry h (h.setPort m p) := sameRegistry_setPort ha
  exact hset.trans (sameRegistry_of_eq rfl rfl rfl)

theorem sameRegistry_socketClose (h : Hub) (v : Nat) : SameRegistry h (h.socketClose v) := by
  unfold socketClose
  split
  · exact sameRegistry_of_eq rfl rfl rfl
  · split <;> exact sameRegistry_of_eq rfl rfl rfl

/-! ## The invariant -/

/-- The map of a service has its live multiplexers, each under its endpoint,
and these have executors of the service's context. -/
structure Registered (h : Hub) : Prop where
  entry : ∀ s ep m, h.services s ep = some m ↔
    (h.port m).alive = true ∧ (h.impls m).creator = some s ∧ (h.impls m).endpoint = ep
  home : ∀ m s, (h.port m).alive = true → (h.impls m).creator = some s → (h.impls m).context = s
  made : ∀ m, (h.port m).alive = true → m < h.created

theorem registered_init : Registered {} where
  entry s ep m := by simp [port]
  home m s h := by simp [port] at h
  made m h := by simp [port] at h

theorem Registered.same {h h' : Hub} (hr : Registered h) (s : SameRegistry h h') : Registered h' where
  entry c ep m := by rw [s.services, s.alive, s.creator, s.endpoint]; exact hr.entry c ep m
  home m c ha hc := by
    rw [s.context]
    exact hr.home m c (by rwa [s.alive] at ha) (by rwa [s.creator] at hc)
  made m ha := by
    rw [s.created]
    exact hr.made m (by rwa [s.alive] at ha)

theorem create_port (h : Hub) (i : Impl) (m : Nat) :
    ((h.create i).port m) = if m = h.created then i.port else h.port m := by
  by_cases hm : m = h.created
  · simp [create, port, hm]
  · simp [create, port, hm]

theorem create_services (h : Hub) (i : Impl) : (h.create i).services = h.services := rfl

theorem create_impls (h : Hub) (i : Impl) (m : Nat) :
    (h.create i).impls m = if m = h.created then i else h.impls m := by
  by_cases hm : m = h.created
  · simp [create, hm]
  · simp [create, hm]

theorem setEntry_services (h : Hub) (s s' : Nat) (ep ep' : Endpoint) (m : Option Nat) :
    (h.setEntry s ep m).services s' ep' = if s' = s ∧ ep' = ep then m else h.services s' ep' := by
  by_cases hs : s' = s
  · subst hs
    by_cases hep : ep' = ep
    · simp [setEntry, hep]
    · simp [setEntry, hep]
  · simp [setEntry, hs]

/-- A multiplexer no service made, or none at all. -/
theorem Registered.supplied {h : Hub} (hr : Registered h) {i : Impl} (hi : i.creator = none) :
    Registered (h.create i) := by
  refine ⟨fun s ep m => ?_, fun m s => ?_, fun m => ?_⟩ <;> simp only [create_port, create_impls] <;>
    by_cases hm : m = h.created
  · have hnew : h.services s ep ≠ some h.created := fun he =>
      Nat.lt_irrefl _ (hr.made _ ((hr.entry s ep _).1 he).1)
    simp [create, hm, hi, hnew]
  · simpa only [create_services, hm, if_false] using hr.entry s ep m
  · simp [hm, hi]
  · simpa only [hm, if_false] using hr.home m s
  · simp [create, hm]
  · simp only [hm, if_false]
    exact fun ha => Nat.lt_succ_of_lt (hr.made m ha)

/-- A multiplexer made by the service, for an executor of its context. -/
theorem Registered.enter {h : Hub} (hr : Registered h) {s : Nat} {ep : Endpoint} (hos : h.Answers s (.at ep)) :
    Registered ((h.create { creator := some s, context := s, endpoint := ep, port := {} }).setEntry s ep
      (some h.created)) := by
  refine ⟨fun s' ep' m => ?_, fun m s' => ?_, fun m => ?_⟩
  · rw [setEntry_services]
    change _ ↔ ((h.create _).port m).alive = true ∧ ((h.create _).impls m).creator = some s' ∧
      ((h.create _).impls m).endpoint = ep'
    simp only [create_port, create_impls]
    by_cases hm : m = h.created
    · subst hm
      have hnew : h.services s' ep' ≠ some h.created := fun he =>
        Nat.lt_irrefl _ (hr.made _ ((hr.entry s' ep' _).1 he).1)
      by_cases hkey : s' = s ∧ ep' = ep
      · simp [hkey]
      · simp only [hkey, if_false, if_true, create, hnew, false_iff]
        rintro ⟨-, hs, hep⟩
        cases hs
        exact hkey ⟨rfl, hep.symm⟩
    · by_cases hkey : s' = s ∧ ep' = ep
      · obtain ⟨rfl, rfl⟩ := hkey
        simp only [hm, if_false, and_self, if_true, Option.some.injEq, Ne.symm hm, false_iff]
        rintro ⟨ha, hc, hep⟩
        exact hos m (hr.made m ha) ha hc hep
      · simpa only [create_services, hm, hkey, if_false] using hr.entry s' ep' m
  · change ((h.create _).port m).alive = true → ((h.create _).impls m).creator = some s' →
      ((h.create _).impls m).context = s'
    simp only [create_port, create_impls]
    by_cases hm : m = h.created
    · simp [hm]
    · simpa only [hm, if_false] using hr.home m s'
  · change ((h.create _).port m).alive = true → m < h.created + 1
    simp only [create_port]
    by_cases hm : m = h.created
    · simp [hm]
    · simp only [hm, if_false]
      exact fun ha => Nat.lt_succ_of_lt (hr.made m ha)

/-- The destructor takes out its own entry if it has one, and otherwise there
is none it could take. -/
theorem Registered.release {h : Hub} (hr : Registered h) {m : Nat} (ha : (h.port m).alive = true)
    (hapart : (h.impls m).creator = none → ∀ m' < h.created, (h.port m').alive = true →
      (h.impls m').creator = some (h.impls m).context → (h.impls m').endpoint ≠ (h.impls m).endpoint) :
    Registered (h.release m) := by
  have halive : ∀ m', ((h.release m).port m').alive = if m' = m then false else (h.port m').alive := by
    intro m'
    by_cases hm : m' = m <;> simp [Hub.release, setPort, setEntry, port, hm]
  have himpl : ∀ m', ((h.release m).impls m').creator = (h.impls m').creator ∧
      ((h.release m).impls m').context = (h.impls m').context ∧
      ((h.release m).impls m').endpoint = (h.impls m').endpoint := by
    intro m'
    by_cases hm : m' = m <;> simp [Hub.release, setPort, setEntry, hm]
  refine ⟨fun s ep m' => ?_, fun m' s => ?_, fun m' => ?_⟩ <;> rw [halive]
  · rw [(himpl m').1, (himpl m').2.2]
    have hserv : (h.release m).services s ep =
        if s = (h.impls m).context ∧ ep = (h.impls m).endpoint then none else h.services s ep :=
      setEntry_services _ _ _ _ _ _
    rw [hserv]
    by_cases hm : m' = m
    · subst hm
      simp only [if_true, Bool.false_eq_true, false_and, iff_false]
      split
      · simp
      · next hkey =>
        intro he
        obtain ⟨-, hc, hep⟩ := (hr.entry s ep m').1 he
        exact hkey ⟨(hr.home m' s ha hc).symm, hep.symm⟩
    · simp only [hm, if_false]
      split
      · next hkey =>
        obtain ⟨rfl, rfl⟩ := hkey
        simp only [reduceCtorEq, false_iff]
        rintro ⟨ha', hc', hep'⟩
        cases hc : (h.impls m).creator with
        | none => exact hapart hc m' (hr.made m' ha') ha' hc' hep'
        | some s =>
          have hs := hr.home m s ha hc
          have he := (hr.entry s _ m).2 ⟨ha, hc, rfl⟩
          have he' := (hr.entry _ _ m').2 ⟨ha', hc', hep'⟩
          rw [hs, he] at he'
          cases he'
          exact hm rfl
      · exact hr.entry s ep m'
  · rw [(himpl m').1, (himpl m').2.1]
    by_cases hm : m' = m
    · simp [hm]
    · simpa only [hm, if_false] using hr.home m' s
  · by_cases hm : m' = m
    · simp [hm]
    · simp only [hm, if_false]
      exact hr.made m'

theorem Registered.report {h : Hub} (hr : Registered h) {m : Nat} {ep : Endpoint}
    (hc : (h.impls m).creator = none) :
    Registered { h with impls := Function.update h.impls m { h.impls m with endpoint := ep } } := by
  refine ⟨fun s ep' m' => ?_, fun m' s => ?_, fun m' => ?_⟩ <;> by_cases hm : m' = m
  · subst hm
    have hnone : h.services s ep' ≠ some m' := fun he => by simp [((hr.entry s ep' m').1 he).2.1] at hc
    simp [hnone, hc]
  · simpa [port, hm] using hr.entry s ep' m'
  · subst hm
    simp [hc]
  · simpa [port, hm] using hr.home m' s
  · subst hm
    simpa [port] using hr.made m'
  · simpa [port, hm] using hr.made m'

/-- What `maybe_create_udp_multiplexer` leaves behind, for an executor of its own context. -/
theorem Registered.maybeCreate {h g : Hub} (hr : Registered h) {s c : Nat} {ep : Endpoint} {reply : Bound}
    {m : Option Nat} (hos : h.Answers s reply) (hc : h.services s ep = none → c = s)
    (hg : h.maybeCreateUdpMultiplexer s c ep reply = some (g, m)) : Registered g := by
  unfold maybeCreateUdpMultiplexer at hg
  split at hg
  · cases hg
    exact hr
  · next hnone =>
    cases reply with
    | thrown => cases hg
    | failed ec =>
      cases hg
      exact hr.same (sameRegistry_of_eq rfl rfl rfl)
    | «at» ep' =>
      cases hg
      have hec : Registered { h with ec := .success } := hr.same (sameRegistry_of_eq rfl rfl rfl)
      rw [hc hnone]
      exact hec.enter hos

theorem registered_bindEndpoint {h h' : Hub} {o : Nat} {ep : Endpoint} {reply : Bound} (hr : Registered h)
    (hos : ∀ c ∈ (h.multiplexers o).bind UdpMultiplexer.ex, h.Answers c reply)
    (hs : h.bindEndpoint o ep reply = .ok h') : Registered h' := by
  simp only [bindEndpoint, Except.bind_ok_iff] at hs
  obtain ⟨-, -, hs⟩ := hs
  split at hs
  · cases hs
    exact hr
  · next c hex =>
    split at hs
    · cases hs
      exact hr
    · next g m hm =>
      have hg : Registered g := hr.maybeCreate (hos c hex) (fun _ => rfl) hm
      split at hs
      · cases hs
        exact hg
      · split at hs <;> cases hs
        · exact (hg.supplied rfl).same (sameRegistry_of_eq rfl rfl rfl)
        · exact hg.same (sameRegistry_attach _ _ _ _)

theorem registered_socketBind {h h' : Hub} {v : Nat} {ep : Endpoint} {reply : Bound} (hr : Registered h)
    (hos : ∀ x ∈ h.sockets v, h.Answers x.service reply)
    (hhome : ∀ x ∈ h.sockets v, x.impl = false → h.services x.service ep = none → x.ex = x.service)
    (hs : h.socketBind v ep reply = .ok h') : Registered h' := by
  unfold socketBind at hs
  split at hs
  · cases hs
  · next x hx =>
    split at hs
    · cases hs
      exact hr.same (sameRegistry_of_eq rfl rfl rfl)
    · next himpl =>
      split at hs
      · cases hs
        exact hr
      · next g m hm =>
        have hg : Registered g := hr.maybeCreate (hos x hx) (hhome x hx (by simpa using himpl)) hm
        split at hs
        · cases hs
          exact hg
        · split at hs <;> cases hs
          exact hg.same (sameRegistry_of_eq rfl rfl rfl)

/-! ## Runs -/

/-- A `socket` makes a multiplexer only in the service of its executor's
context, and a multiplexer with a supplied socket does not report, when it is
destroyed, the endpoint of a live one that the service of its executor's
context made. -/
def Consistent (h : Hub) : Event → Prop
  | .socketBind v ep _ _ =>
    ∀ x ∈ h.sockets v, x.impl = false → h.services x.service ep = none → x.ex = x.service
  | .release m =>
    (h.impls m).creator = none → ∀ m' < h.created, (h.port m').alive = true →
      (h.impls m').creator = some (h.impls m).context → (h.impls m').endpoint ≠ (h.impls m).endpoint
  | _ => True

instance (h : Hub) : (ev : Event) → Decidable (h.Consistent ev)
  | .socketBind v ep _ _ =>
    inferInstanceAs (Decidable (∀ x ∈ h.sockets v, x.impl = false → h.services x.service ep = none → x.ex = x.service))
  | .release m =>
    inferInstanceAs (Decidable ((h.impls m).creator = none → ∀ m' < h.created, (h.port m').alive = true →
      (h.impls m').creator = some (h.impls m).context → (h.impls m').endpoint ≠ (h.impls m).endpoint))
  | .construct _ | .copyConstruct _ | .moveConstruct _ | .copyAssign _ _ | .moveAssign _ _
  | .bindEndpoint _ _ _ _ | .bindSocket _ _ _ | .bindMultiplexer _ _ | .asyncReceiveFrom _ _ _
  | .asyncSendTo _ _ _ | .close _ _ | .destroy _ | .socket _ | .socketBindMultiplexer _ _ _
  | .socketMoveConstruct _ | .socketMoveAssign _ _ | .socketClose _ | .socketDestroy _ | .libraryClose _
  | .setEndpoint _ _ | .inPort _ _ | .report _ _ => inferInstanceAs (Decidable True)

theorem registered_step {h h' : Hub} {ev : Event} (hr : Registered h) (hen : h.Possible ev)
    (hc : h.Consistent ev) (hs : h.step ev = .ok h') : Registered h' := by
  have same : ∀ g : Hub, g.impls = h.impls → g.created = h.created → g.services = h.services → Registered g :=
    fun g hi hcr hse => hr.same (sameRegistry_of_eq hi hcr hse)
  cases ev with
  | construct | moveConstruct | socket | socketMoveConstruct | libraryClose | setEndpoint =>
    cases hs
    exact same _ rfl rfl rfl
  | copyConstruct o => exact hr.same (sameRegistry_copyConstruct hs)
  | copyAssign o o' => exact hr.same (sameRegistry_copyAssign hs)
  | moveAssign o o' =>
    cases hs
    exact hr.same (sameRegistry_moveAssign h o o')
  | bindEndpoint o ep ec reply =>
    have hec : Registered { h with ec } := same _ rfl rfl rfl
    exact registered_bindEndpoint hec hen.2 hs
  | bindSocket o c ep =>
    simp only [step, bindSocket, Except.bind_ok_iff, Except.pure_ok_iff] at hs
    obtain ⟨-, -, rfl⟩ := hs
    exact (hr.supplied rfl).same (sameRegistry_attach _ _ _ _)
  | bindMultiplexer o o' =>
    simp only [step, bindMultiplexer] at hs
    split at hs
    · have hclose : Registered { h.close o with ec := h.ec } :=
        (hr.same (sameRegistry_close h o)).same (sameRegistry_of_eq rfl rfl rfl)
      exact hclose.same (sameRegistry_copyAssign hs)
    · exact hr.same (sameRegistry_copyAssign hs)
  | asyncReceiveFrom o ep buffers =>
    simp only [step, asyncReceiveFrom] at hs
    split at hs
    · cases hs
      exact same _ rfl rfl rfl
    · simp only [Except.bind_ok_iff] at hs
      obtain ⟨-, -, hs⟩ := hs
      exact hr.same (sameRegistry_onPort (fun _ _ hp => (Port.asyncReceiveFrom_follows hp).1.alive) hs)
  | asyncSendTo o buffers dst =>
    simp only [step, asyncSendTo] at hs
    split at hs
    · cases hs
      exact same _ rfl rfl rfl
    · simp only [Except.bind_ok_iff] at hs
      obtain ⟨-, -, hs⟩ := hs
      refine hr.same (sameRegistry_onPort (fun p p' hp => ?_) hs)
      cases hp
      exact (Port.asyncSendTo_follows _ _ _ _).1.alive
  | close o ec =>
    cases hs
    exact (same { h with ec } rfl rfl rfl).same (sameRegistry_close _ o)
  | destroy o =>
    cases hs
    exact hr.same (sameRegistry_destroy h o)
  | socketBind v ep ec reply =>
    have hec : Registered { h with ec } := same _ rfl rfl rfl
    exact registered_socketBind hec hen.2 hc hs
  | socketBindMultiplexer v o ec =>
    simp only [step, socketBindMultiplexer] at hs
    split at hs
    · cases hs
    · split at hs
      · cases hs
        exact same _ rfl rfl rfl
      · split at hs
        · cases hs
        · simp only [Except.bind_ok_iff, Except.pure_ok_iff] at hs
          obtain ⟨-, -, rfl⟩ := hs
          exact same _ rfl rfl rfl
  | socketMoveAssign v v' =>
    have hclose := hr.same (sameRegistry_socketClose h v)
    simp only [step, socketMoveAssign] at hs
    split at hs
    · split at hs
      · cases hs
        exact hclose
      · split at hs
        · cases hs
        · cases hs
          exact hclose.same (sameRegistry_of_eq rfl rfl rfl)
    · cases hs
  | socketClose v =>
    cases hs
    exact hr.same (sameRegistry_socketClose h v)
  | socketDestroy v =>
    cases hs
    exact (hr.same (sameRegistry_socketClose h v)).same (sameRegistry_of_eq rfl rfl rfl)
  | inPort m ev =>
    exact hr.same (sameRegistry_onPort (fun _ _ hp => (Port.step_follows hp hen.1).1.alive) hs)
  | report m ep =>
    cases hs
    exact hr.report hen.2
  | release m =>
    cases hs
    exact hr.release hen.2.1.1 hc

/-! ## What a bind finds -/

theorem Registered.finds {h : Hub} (hr : Registered h) {m s : Nat} (ha : (h.port m).alive = true)
    (hc : (h.impls m).creator = some s) (c : Nat) (reply : Bound) :
    h.maybeCreateUdpMultiplexer s c (h.impls m).endpoint reply = some (h, some m) := by
  have he := (hr.entry s _ m).2 ⟨ha, hc, rfl⟩
  simp [maybeCreateUdpMultiplexer, he, ha]

/-- Only a failed bind of the UDP socket answers no multiplexer. -/
theorem Registered.null_error {h g : Hub} (hr : Registered h) {s c : Nat} {ep : Endpoint} {reply : Bound}
    (hos : h.Answers s reply) (hnull : h.maybeCreateUdpMultiplexer s c ep reply = some (g, none)) :
    g.ec.isError = true := by
  unfold maybeCreateUdpMultiplexer at hnull
  split at hnull
  · next m he => simp [((hr.entry s ep m).1 he).1] at hnull
  · cases reply with
    | thrown => cases hnull
    | failed ec =>
      cases hnull
      exact hos
    | «at» ep' => cases hnull

theorem Registered.socketBind_finds {h : Hub} (hr : Registered h) {m : Nat} (ha : (h.port m).alive = true)
    {v : Nat} {x : Socket} (hx : h.sockets v = some x) (hc : (h.impls m).creator = some x.service)
    (himpl : x.impl = false) {ec : ErrorCode} (hec : ec.isError = false) (reply : Bound) :
    ∃ h', h.step (.socketBind v (h.impls m).endpoint ec reply) = .ok h' ∧ h'.multiplexerOf v = some m := by
  have hg : Registered { h with ec } := hr.same (sameRegistry_of_eq rfl rfl rfl)
  have hfind := hg.finds ha hc x.ex reply
  refine ⟨{ h with ec }.setSocket v (some { x with impl := true, multiplexer := some m }), ?_, ?_⟩
  · simp only [step, socketBind, hx, himpl, Bool.false_eq_true, if_false]
    rw [hfind]
    simp [hec]
  · simp [multiplexerOf, setSocket]

theorem Registered.bindEndpoint_finds {h : Hub} (hr : Registered h) {m : Nat} (ha : (h.port m).alive = true)
    {o s : Nat} (ho : h.multiplexers o = some ⟨some s, none⟩) (hc : (h.impls m).creator = some s)
    {ec : ErrorCode} (hec : ec.isError = false) (reply : Bound) :
    ∃ h' k, h.step (.bindEndpoint o (h.impls m).endpoint ec reply) = .ok h' ∧ h'.stateOf o = some (m, k) := by
  have hg : Registered { h with ec } := hr.same (sameRegistry_of_eq rfl rfl rfl)
  have hfind := hg.finds ha hc s reply
  refine ⟨{ h with ec }.attach o (some s) m, (h.port m).opened, ?_, ?_⟩
  · simp only [step, bindEndpoint, stateOf, ho, Option.bind_some]
    rw [hfind]
    simp [hec, Except.require]
  · simp [stateOf, attach, setMultiplexer, port]

/-- **The registry is exact**: the map of a service sends an endpoint to a
multiplexer exactly if the service made it, it is alive and bound there. So a
bind to the endpoint of a live multiplexer of the service gets it, and a bind
that gets none has an error. -/
theorem registry_exact {h : Hub}
    (hrun : Reachable (fun h ev => Enabled h ev ∧ Consistent h ev) step {} h) :
    (∀ s ep m, h.services s ep = some m ↔
      (h.port m).alive = true ∧ (h.impls m).creator = some s ∧ (h.impls m).endpoint = ep) ∧
    (∀ m s, (h.port m).alive = true → (h.impls m).creator = some s →
      (∀ c reply, h.maybeCreateUdpMultiplexer s c (h.impls m).endpoint reply = some (h, some m)) ∧
      (∀ v x ec reply, h.sockets v = some x → x.service = s → x.impl = false → ec.isError = false →
        ∃ h', h.step (.socketBind v (h.impls m).endpoint ec reply) = .ok h' ∧ h'.multiplexerOf v = some m) ∧
      ∀ o ec reply, h.multiplexers o = some ⟨some s, none⟩ → ec.isError = false →
        ∃ h' k, h.step (.bindEndpoint o (h.impls m).endpoint ec reply) = .ok h' ∧ h'.stateOf o = some (m, k)) ∧
    ∀ s c ep reply h', h.Answers s reply → h.maybeCreateUdpMultiplexer s c ep reply = some (h', none) →
      h'.ec.isError = true := by
  have hr : Registered h :=
    hrun.invariant Registered (fun _ _ _ hr hok hs => registered_step hr hok.1.1 hok.2 hs) registered_init
  refine ⟨hr.entry, fun m s ha hc => ⟨hr.finds ha hc, ?_, ?_⟩, fun s c ep reply h' => hr.null_error⟩
  · rintro v x ec reply hx rfl himpl hec
    exact hr.socketBind_finds ha hx hc himpl hec reply
  · intro o ec reply ho hec
    exact hr.bindEndpoint_finds ha ho hc hec reply

/-- Two contexts, two multiplexers on endpoints of their own, and a third
with a supplied socket that has come and gone. -/
theorem registry_exact_two_contexts : ∃ h : Hub,
    Reachable (fun h ev => Enabled h ev ∧ Consistent h ev) step {} h ∧
    h.services 0 ⟨.loopbackV4, 4000⟩ = some 0 ∧ h.services 1 ⟨.loopbackV4, 4001⟩ = some 1 := by
  obtain ⟨h, hrun, hp⟩ := exists_run (fun h ev => Enabled h ev ∧ Consistent h ev) step {}
    [.socket 0, .socket 1, .socketBind 0 ⟨.loopbackV4, 4000⟩ .success (.at ⟨.loopbackV4, 4000⟩),
      .socketBind 1 ⟨.loopbackV4, 0⟩ .success (.at ⟨.loopbackV4, 4001⟩), .construct (some 0),
      .bindSocket 0 0 ⟨.loopbackV4, 4002⟩, .destroy 0, .release 2]
    (fun h => ((h.port 0).alive = true ∧ (h.impls 0).creator = some 0 ∧ (h.impls 0).endpoint = ⟨.loopbackV4, 4000⟩) ∧
      (h.port 1).alive = true ∧ (h.impls 1).creator = some 1 ∧ (h.impls 1).endpoint = ⟨.loopbackV4, 4001⟩)
    ⟨_, rfl, by decide⟩
  have hexact := (registry_exact ⟨_, hrun⟩).1
  exact ⟨h, ⟨_, hrun⟩, (hexact _ _ _).2 hp.1, (hexact _ _ _).2 hp.2⟩

/-- **The registry goes astray** in two ways. A `socket` assigned from one of
another context makes a multiplexer in the service of the first and for an
executor of the second; destroyed, it stays in the map, and the next bind
there follows a null pointer. And a multiplexer with a supplied socket takes
the entry of another with it. -/
theorem registry_astray :
    (∃ h, Run Enabled step {} [.socket 0, .socket 1, .socketMoveAssign 0 1,
        .socketBind 0 ⟨.loopbackV4, 4000⟩ .success (.at ⟨.loopbackV4, 4000⟩), .socketClose 0, .release 0] h ∧
      h.services 0 ⟨.loopbackV4, 4000⟩ = some 0 ∧ (h.port 0).alive = false ∧
      (∃ h', h.maybeCreateUdpMultiplexer 0 1 ⟨.loopbackV4, 4000⟩ (.at ⟨.loopbackV4, 4000⟩) = some (h', none) ∧
        h'.ec = .success) ∧
      h.step (.socketBind 0 ⟨.loopbackV4, 4000⟩ .success (.at ⟨.loopbackV4, 4000⟩)) = .error .nullPointer) ∧
    ∃ h, Run Enabled step {} [.socket 0, .socketBind 0 ⟨.loopbackV4, 4000⟩ .success (.at ⟨.loopbackV4, 4000⟩),
        .construct (some 0), .bindSocket 0 0 ⟨.loopbackV4, 4000⟩, .close 0 .success, .release 1] h ∧
      (h.port 0).alive = true ∧ (h.impls 0).creator = some 0 ∧ (h.impls 0).endpoint = ⟨.loopbackV4, 4000⟩ ∧
      h.services 0 ⟨.loopbackV4, 4000⟩ = none :=
  ⟨⟨_, run_of_exec (by rfl), by decide, by decide, ⟨_, rfl, rfl⟩, rfl⟩,
    ⟨_, run_of_exec (by rfl), by decide, by decide, by decide, by decide⟩⟩

end AsioUtp.Hub
