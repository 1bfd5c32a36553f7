/-
What `bind` and `close` make of the `error_code` they are given.

The caller's `error_code` comes in by reference and goes out as the report of
the call. Each call ends in one of three ways (`call_ends`): it fails and
assigns the error, it binds a multiplexer made now and the system's answer
clears the code, or it takes a path that never assigns the code at all. The
last is the path through an entry `maybe_create_udp_multiplexer` finds, the
whole of `socket::bind(udp_multiplexer)`, a `close` that has something to
close, and what leaves by an exception. On it the report is whatever the code
was before, and for the two binds to an endpoint an old error even makes the
call give up.
-/
import AsioUtp.Hub

namespace AsioUtp

open Machine

namespace Hub

/-- The calls that bind or close and have an `error_code&`, without what that refers to. -/
inductive Call
  | socketBind (v : Nat) (ep : Endpoint) (reply : Bound)
  | socketBindMultiplexer (v o : Nat)
  | bindEndpoint (o : Nat) (ep : Endpoint) (reply : Bound)
  | close (o : Nat)
  deriving Repr, DecidableEq

/-- The call with an `error_code` that is `ec` on entry. -/
def Call.event (ec : ErrorCode) : Call → Event
  | .socketBind v ep reply => .socketBind v ep ec reply
  | .socketBindMultiplexer v o => .socketBindMultiplexer v o ec
  | .bindEndpoint o ep reply => .bindEndpoint o ep ec reply
  | .close o => .close o ec

def Call.Possible (h : Hub) (call : Call) : Prop := h.Possible (call.event .success)

/-- The call leaves by an exception: of `open`, or of `_ex.context()` where there is no executor. -/
def Call.Throws (h : Hub) : Call → Prop
  | .socketBind v ep reply =>
    reply = .thrown ∧ ∃ x ∈ h.sockets v, x.impl = false ∧ h.services x.service ep = none
  | .bindEndpoint o ep reply =>
    ∀ c ∈ (h.multiplexers o).bind UdpMultiplexer.ex, reply = .thrown ∧ h.services c ep = none
  | .socketBindMultiplexer _ _ | .close _ => False

/-- What the call is for has happened between `h` and `h'`: a new state counts only with its `impl`. -/
def Call.Succeeds (h h' : Hub) : Call → Prop
  | .socketBind v _ _ | .socketBindMultiplexer v _ =>
    (∀ x ∈ h.sockets v, x.impl = false) ∧ ∃ x ∈ h'.sockets v, x.impl = true
  | .bindEndpoint o _ _ => h.stateOf o = none ∧ ∃ q ∈ h'.stateOf o, ((h'.port q.1).states q.2).impl = true
  | .close o => h.stateOf o ≠ none ∧ h'.stateOf o = none

/-- The code on return is an error if the call failed and only then, and a failed call changed
nothing else. -/
def Call.Truthful (h h' : Hub) (call : Call) : Prop :=
  (h'.ec.isError = true ↔ ¬ call.Succeeds h h') ∧ (¬ call.Succeeds h h' → h' = { h with ec := h'.ec })

/-- The call does the same and reports the same for any two codes on entry, and what it reports is
true. -/
structure Call.Regardless (h : Hub) (call : Call) : Prop where
  same : ∀ ec ec', h.step (call.event ec) = h.step (call.event ec')
  truthful : ∀ ec h', h.step (call.event ec) = .ok h' → call.Truthful h h'

/-- The call takes a path on which the code is assigned. -/
def Call.Assigns (h : Hub) : Call → Prop
  | .socketBind v ep reply => ∀ x ∈ h.sockets v, x.impl = true ∨ reply ≠ .thrown ∧ h.services x.service ep = none
  | .socketBindMultiplexer v _ => ∀ x ∈ h.sockets v, x.impl = true
  | .bindEndpoint o ep reply =>
    ∃ c ∈ (h.multiplexers o).bind UdpMultiplexer.ex, reply ≠ .thrown ∧ h.services c ep = none
  | .close o => h.stateOf o = none

/-- No service has the entry of a multiplexer that is gone. -/
def EntriesAlive (h : Hub) : Prop := ∀ s ep m, h.services s ep = some m → (h.port m).alive = true

/-- How a call ends: refused with the error `e`, done with a cleared code, or done, given up or left
by an exception, with the code it came with. -/
inductive Call.Ends (h : Hub) (call : Call) : Prop
  | refused (e : ErrorCode) (he : e.isError = true) (assigns : call.Assigns h)
      (all : ∀ ec, h.step (call.event ec) = .ok { h with ec := e })
  | made (h' : Hub) (hec : h'.ec = .success) (done : call.Succeeds h h') (assigns : call.Assigns h)
      (all : ∀ ec, h.step (call.event ec) = .ok h')
  | kept (assigns : ¬ call.Assigns h)
      (error : ∃ h', h.step (call.event .badDescriptor) = .ok h' ∧ h'.ec = .badDescriptor)
      (cleared : ∀ h', h.step (call.event .success) = .ok h' →
        h'.ec = .success ∧ (h.EntriesAlive → ¬ call.Throws h → call.Succeeds h h'))
      (thrown : call.Throws h → ∀ ec, h.step (call.event ec) = .ok { h with ec })

theorem Call.not_succeeds_of_same (h : Hub) (ec : ErrorCode) (call : Call) : ¬ call.Succeeds h { h with ec } := by
  cases call with
  | socketBind v _ _ | socketBindMultiplexer v _ =>
    rintro ⟨hno, x, hx, hi⟩
    rw [hno x hx] at hi
    cases hi
  | bindEndpoint o _ _ =>
    rintro ⟨hno, q, hq, -⟩
    cases hno.symm.trans hq
  | close o => exact fun hs => hs.1 hs.2

theorem Call.not_throws_of_assigns {h : Hub} {call : Call} (ha : call.Assigns h) : ¬ call.Throws h := by
  cases call with
  | socketBind v ep reply =>
    rintro ⟨hreply, x, hx, hi, -⟩
    rcases ha x hx with hi' | ⟨hne, -⟩
    · rw [hi] at hi'
      cases hi'
    · exact hne hreply
  | bindEndpoint o ep reply =>
    obtain ⟨c, hc, hne, -⟩ := ha
    exact fun hthrow => hne (hthrow c hc).1
  | socketBindMultiplexer v o | close o => exact id

/-- An exception leaves everything as it is. -/
theorem Call.ends_of_throws {h : Hub} {call : Call} (hthrow : call.Throws h)
    (hstep : ∀ ec, h.step (call.event ec) = .ok { h with ec }) : call.Ends h := by
  refine .kept (fun ha => not_throws_of_assigns ha hthrow) ⟨_, hstep _, rfl⟩ (fun h' hs' => ?_) fun _ => hstep
  cases (hstep _).symm.trans hs'
  exact ⟨rfl, fun _ hno => absurd hthrow hno⟩

/-! ## The ends of find-or-create -/

section MaybeCreate

variable {h : Hub} {s c : Nat} {ep : Endpoint}

/-- The hub with a multiplexer made now, for service `s`. -/
def withMade (h : Hub) (s c : Nat) (ep : Endpoint) : Hub :=
  ({ h with ec := .success }.create { creator := some s, context := c, endpoint := ep, port := {} }).setEntry s ep
    (some h.created)

theorem maybeCreate_thrown (hs : h.services s ep = none) (ec : ErrorCode) :
    { h with ec }.maybeCreateUdpMultiplexer s c ep .thrown = none := by
  simp [maybeCreateUdpMultiplexer, hs]

theorem maybeCreate_failed (hs : h.services s ep = none) (e ec : ErrorCode) :
    { h with ec }.maybeCreateUdpMultiplexer s c ep (.failed e) = some ({ h with ec := e }, none) := by
  simp [maybeCreateUdpMultiplexer, hs]

theorem maybeCreate_at (hs : h.services s ep = none) (ep' : Endpoint) (ec : ErrorCode) :
    { h with ec }.maybeCreateUdpMultiplexer s c ep (.at ep') = some (h.withMade s c ep', some h.created) := by
  simp [maybeCreateUdpMultiplexer, hs, withMade]

/-- An entry found: the code is not touched. -/
theorem maybeCreate_found {m : Nat} (hs : h.services s ep = some m) (reply : Bound) (ec : ErrorCode) :
    { h with ec }.maybeCreateUdpMultiplexer s c ep reply =
      some ({ h with ec }, if (h.port m).alive then some m else none) := by
  simp only [maybeCreateUdpMultiplexer, hs]
  rfl

end MaybeCreate

/-! ## How each call ends -/

theorem socketBind_ends {h : Hub} {v : Nat} {ep : Endpoint} {reply : Bound}
    (hp : (Call.socketBind v ep reply).Possible h) : (Call.socketBind v ep reply).Ends h := by
  obtain ⟨hlive, hans⟩ := hp
  obtain ⟨x, hx⟩ := Option.isSome_iff_exists.1 hlive
  have hno : x.impl = false → ∀ y ∈ h.sockets v, y.impl = false := by
    intro hi y hy
    cases hx.symm.trans hy
    exact hi
  cases hi : x.impl with
  | true =>
    refine .refused .alreadyOpen rfl ?_ fun ec => ?_
    · simp [Call.Assigns, hx, hi]
    · simp [Call.event, step, socketBind, hx, hi]
  | false =>
    cases hs : h.services x.service ep with
    | none =>
      have hassigns : reply ≠ .thrown → (Call.socketBind v ep reply).Assigns h := fun hne => by
        simp [Call.Assigns, hx, hs, hne]
      cases reply with
      | thrown =>
        refine Call.ends_of_throws ⟨rfl, x, hx, hi, hs⟩ fun ec => ?_
        simp [Call.event, step, socketBind, hx, hi, maybeCreate_thrown hs]
      | failed e =>
        have he : e.isError = true := hans x hx
        refine .refused e he (hassigns (by simp)) fun ec => ?_
        simp [Call.event, step, socketBind, hx, hi, maybeCreate_failed hs, he]
      | «at» ep' =>
        let y : Socket := { x with impl := true, multiplexer := some h.created }
        refine .made ((h.withMade x.service x.ex ep').setSocket v (some y)) rfl ?_ (hassigns (by simp)) fun ec => ?_
        · exact ⟨hno hi, y, Function.update_self .., rfl⟩
        · simp only [Call.event, step, socketBind, hx, hi, maybeCreate_at hs]
          rfl
    | some m =>
      refine .kept ?_ ⟨{ h with ec := .badDescriptor }, ?_, rfl⟩ (fun h' hs' => ?_) fun hthrow => ?_
      · simp [Call.Assigns, hx, hi, hs]
      · simp [Call.event, step, socketBind, hx, hi, maybeCreate_found hs, ErrorCode.isError]
      · -- with a clear code the call goes on with what the entry still refers to
        simp only [Call.event, step, socketBind, hx, hi, maybeCreate_found hs] at hs'
        by_cases hm : (h.port m).alive = true
        · simp only [hm, if_true] at hs'
          cases hs'
          exact ⟨rfl, fun _ _ => ⟨hno hi, _, Function.update_self .., rfl⟩⟩
        · simp [hm, ErrorCode.isError] at hs'
      · obtain ⟨-, y, hy, -, hnone⟩ := hthrow
        cases hx.symm.trans hy
        rw [hs] at hnone
        cases hnone

theorem socketBindMultiplexer_ends {h : Hub} {v o : Nat} (hp : (Call.socketBindMultiplexer v o).Possible h)
    (hret : ∃ ec h', h.step ((Call.socketBindMultiplexer v o).event ec) = .ok h') :
    (Call.socketBindMultiplexer v o).Ends h := by
  obtain ⟨x, hx⟩ := Option.isSome_iff_exists.1 hp.1
  cases hi : x.impl with
  | true =>
    refine .refused .alreadyOpen rfl ?_ fun ec => ?_
    · simp [Call.Assigns, hx, hi]
    · simp [Call.event, step, socketBindMultiplexer, hx, hi]
  | false =>
    obtain ⟨ec₀, h₀, hret⟩ := hret
    rcases hst : h.stateOf o with - | ⟨m, k⟩
    · have hst' : { h with ec := ec₀ }.stateOf o = none := hst
      simp [Call.event, step, socketBindMultiplexer, hx, hi, hst'] at hret
    · have hst' : ∀ ec, { h with ec }.stateOf o = some (m, k) := fun _ => hst
      have hm : ((h.port m).states k).impl = true := by
        simp only [Call.event, step, socketBindMultiplexer, hx, hi, hst'] at hret
        obtain ⟨_, hreq, -⟩ := Except.bind_ok_iff.1 hret
        exact Except.require_ok_iff.1 hreq
      have hstep : ∀ ec, h.step ((Call.socketBindMultiplexer v o).event ec) =
          .ok ({ h with ec }.setSocket v (some { x with impl := true, multiplexer := some m })) := by
        intro ec
        have hm' : (({ h with ec }.port m).states k).impl = true := hm
        simp [Call.event, step, socketBindMultiplexer, hx, hi, hst', hm', Except.require]
      refine .kept ?_ ⟨_, hstep _, rfl⟩ (fun h' hs' => ?_) False.elim
      · simp [Call.Assigns, hx, hi]
      · cases (hstep _).symm.trans hs'
        refine ⟨rfl, fun _ _ => ⟨fun y hy => ?_, _, Function.update_self .., rfl⟩⟩
        cases hx.symm.trans hy
        exact hi

/-- The state `attach` makes has its `impl`. -/
theorem attach_impl (h : Hub) (o m : Nat) (ex : Option Nat) :
    ∃ q ∈ (h.attach o ex m).stateOf o, (((h.attach o ex m).port q.1).states q.2).impl = true :=
  ⟨(m, (h.port m).opened), by simp [stateOf, attach, setMultiplexer],
    by simp [attach, port, setPort, setMultiplexer, Port.bind, Port.setState]⟩

theorem bindEndpoint_ends {h : Hub} {o : Nat} {ep : Endpoint} {reply : Bound}
    (hp : (Call.bindEndpoint o ep reply).Possible h)
    (hret : ∃ ec h', h.step ((Call.bindEndpoint o ep reply).event ec) = .ok h') :
    (Call.bindEndpoint o ep reply).Ends h := by
  obtain ⟨-, hans⟩ := hp
  have hst : h.stateOf o = none := by
    obtain ⟨ec, h', hret⟩ := hret
    obtain ⟨_, hreq, -⟩ := Except.bind_ok_iff.1 hret
    exact Except.require_ok_iff.1 hreq
  have hst' : ∀ ec, { h with ec }.stateOf o = none := fun _ => hst
  rcases hc : (h.multiplexers o).bind UdpMultiplexer.ex with - | c
  · -- `_ex.context()` throws
    refine Call.ends_of_throws (by simp [Call.Throws, hc]) fun ec => ?_
    simp [Call.event, step, bindEndpoint, hst', hc, Except.require]
  cases hs : h.services c ep with
  | none =>
    have hassigns : reply ≠ .thrown → (Call.bindEndpoint o ep reply).Assigns h := fun hne =>
      ⟨c, hc, hne, hs⟩
    cases reply with
    | thrown =>
      refine Call.ends_of_throws (by simp [Call.Throws, hc, hs]) fun ec => ?_
      simp [Call.event, step, bindEndpoint, hst', hc, maybeCreate_thrown hs, Except.require]
    | failed e =>
      have he : e.isError = true := hans c hc
      refine .refused e he (hassigns (by simp)) fun ec => ?_
      simp [Call.event, step, bindEndpoint, hst', hc, maybeCreate_failed hs, he, Except.require]
    | «at» ep' =>
      refine .made ((h.withMade c c ep').attach o (some c) h.created) rfl ⟨hst, attach_impl ..⟩ (hassigns (by simp))
        fun ec => ?_
      simp [Call.event, step, bindEndpoint, hst', hc, maybeCreate_at hs, Except.require]
      rfl
  | some m =>
    refine .kept ?_ ⟨{ h with ec := .badDescriptor }, ?_, rfl⟩ (fun h' hs' => ?_) fun hthrow => ?_
    · simp [Call.Assigns, hc, hs]
    · simp [Call.event, step, bindEndpoint, hst', hc, maybeCreate_found hs, ErrorCode.isError, Except.require]
    · -- the entry may be dead, and the new state is then without `impl`
      by_cases hm : (h.port m).alive = true
      · have hstep : h.step ((Call.bindEndpoint o ep reply).event .success) =
            .ok ({ h with ec := .success }.attach o (some c) m) := by
          simp [Call.event, step, bindEndpoint, hst', hc, maybeCreate_found hs, hm, ErrorCode.isError, Except.require]
        cases hstep.symm.trans hs'
        exact ⟨rfl, fun _ _ => ⟨hst, attach_impl ..⟩⟩
      · have hstep : h.step ((Call.bindEndpoint o ep reply).event .success) =
            .ok ({ h with ec := .success }.attachNull o (some c)) := by
          simp [Call.event, step, bindEndpoint, hst', hc, maybeCreate_found hs, hm, ErrorCode.isError, Except.require]
        cases hstep.symm.trans hs'
        exact ⟨rfl, fun halive => absurd (halive c ep m hs) hm⟩
    · rw [(hthrow c hc).2] at hs
      cases hs

theorem close_of_not_open {h : Hub} {o : Nat} (hst : h.stateOf o = none) :
    h.close o = { h with ec := .badDescriptor } := by
  unfold close
  split
  · next ho => simp [stateOf, ho] at hst
  · rfl

theorem close_ends {h : Hub} {o : Nat} : (Call.close o).Ends h := by
  rcases hst : h.stateOf o with - | ⟨m, k⟩
  · refine .refused .badDescriptor rfl hst fun ec => ?_
    have hst' : { h with ec }.stateOf o = none := hst
    simp only [Call.event, step, close_of_not_open hst']
  · obtain ⟨⟨ex, _⟩, ho, rfl⟩ := Option.bind_eq_some_iff.1 hst
    have hstep : ∀ ec, h.step ((Call.close o).event ec) =
        .ok (({ h with ec }.setPort m ((h.port m).close k)).setMultiplexer o (some ⟨ex, none⟩)) := by
      intro ec
      simp only [Call.event, step, close, ho]
      rfl
    have hopen : h.stateOf o ≠ none := by simp [hst]
    refine .kept hopen ⟨_, hstep _, rfl⟩ (fun h' hs' => ?_) False.elim
    cases (hstep _).symm.trans hs'
    exact ⟨rfl, fun _ _ => ⟨hopen, by simp [stateOf, setMultiplexer]⟩⟩

/-- Every call that returns for some code ends in one of the three ways. -/
theorem call_ends {h : Hub} {call : Call} (hp : call.Possible h)
    (hret : ∃ ec h', h.step (call.event ec) = .ok h') : call.Ends h := by
  cases call with
  | socketBind v ep reply => exact socketBind_ends hp
  | socketBindMultiplexer v o => exact socketBindMultiplexer_ends hp hret
  | bindEndpoint o ep reply => exact bindEndpoint_ends hp hret
  | close o => exact close_ends

theorem Call.truthful_of_refused {h : Hub} {call : Call} {e : ErrorCode} (he : e.isError = true) :
    call.Truthful h { h with ec := e } :=
  ⟨⟨fun _ => call.not_succeeds_of_same h e, fun _ => he⟩, fun _ => rfl⟩

theorem Call.truthful_of_done {h h' : Hub} {call : Call} (hec : h'.ec = .success) (hs : call.Succeeds h h') :
    call.Truthful h h' := by
  refine ⟨⟨fun he => ?_, fun hn => absurd hs hn⟩, fun hn => absurd hs hn⟩
  rw [hec] at he
  cases he

/-- A call that ends in one state, whatever the code, and reports it truly. -/
theorem Call.Regardless.of_all {h h' : Hub} {call : Call} (htrue : call.Truthful h h')
    (all : ∀ ec, h.step (call.event ec) = .ok h') : call.Regardless h where
  same ec ec' := (all ec).trans (all ec').symm
  truthful ec h₁ hs := by
    cases (all ec).symm.trans hs
    exact htrue

end Hub

open Hub

/-- **`bind` and `close` do not depend on the code they are given, and report what happened, exactly if
they take a path that assigns it.** Given a code that is clear, what they report is true on every path that does
not end in an exception, unless the entry found is a dead one; and an exception leaves everything as it was. -/
theorem regardless_iff_assigns {h : Hub} {call : Hub.Call} (hp : call.Possible h)
    (hret : ∃ ec h', h.step (call.event ec) = .ok h') :
    (call.Regardless h ↔ call.Assigns h) ∧
      (h.EntriesAlive → ¬ call.Throws h → ∀ h', h.step (call.event .success) = .ok h' → call.Truthful h h') ∧
      (call.Throws h → ∀ ec, h.step (call.event ec) = .ok { h with ec }) := by
  rcases call_ends hp hret with ⟨e, he, hassigns, all⟩ | ⟨h₁, hec, hdone, hassigns, all⟩ |
    ⟨hno, herror, hcleared, hthrown⟩
  · have hreg : call.Regardless h := .of_all (Call.truthful_of_refused he) all
    exact ⟨⟨fun _ => hassigns, fun _ => hreg⟩, fun _ _ => hreg.truthful _,
      fun hthrow => absurd hthrow (Call.not_throws_of_assigns hassigns)⟩
  · have hreg : call.Regardless h := .of_all (Call.truthful_of_done hec hdone) all
    exact ⟨⟨fun _ => hassigns, fun _ => hreg⟩, fun _ _ => hreg.truthful _,
      fun hthrow => absurd hthrow (Call.not_throws_of_assigns hassigns)⟩
  · refine ⟨⟨fun hreg => ?_, fun ha => absurd ha hno⟩, fun halive hthrow h' hs => ?_, hthrown⟩
    · -- the old error comes out again, where a clear code would have stayed clear
      obtain ⟨h', hs, hec⟩ := herror
      have hclear := (hcleared h' ((hreg.same _ _).trans hs)).1
      rw [hec] at hclear
      cases hclear
    · obtain ⟨hec, hdone⟩ := hcleared h' hs
      exact Call.truthful_of_done hec (hdone halive hthrow)

/-- One socket is bound to an endpoint; a second one binds to another, whatever its code is. -/
theorem regardless_iff_assigns_two_sockets : ∃ h : Hub, Reachable Hub.Enabled Hub.step {} h ∧
    (Hub.Call.socketBind 1 ⟨.loopbackV4, 4001⟩ (.at ⟨.loopbackV4, 4001⟩)).Regardless h := by
  obtain ⟨h, hr, hp, hs, hret⟩ := exists_run Hub.Enabled Hub.step {}
    [.socket 0, .socket 0, .socketBind 0 ⟨.loopbackV4, 4000⟩ .success (.at ⟨.loopbackV4, 4000⟩)]
    (fun h => h.Possible (.socketBind 1 ⟨.loopbackV4, 4001⟩ .success (.at ⟨.loopbackV4, 4001⟩)) ∧
      (∀ x ∈ h.sockets 1, h.services x.service ⟨.loopbackV4, 4001⟩ = none) ∧
      ∃ h', h.step (.socketBind 1 ⟨.loopbackV4, 4001⟩ .success (.at ⟨.loopbackV4, 4001⟩)) = .ok h')
    ⟨_, rfl, by decide, by decide, _, rfl⟩
  have hp' : (Hub.Call.socketBind 1 ⟨.loopbackV4, 4001⟩ (.at ⟨.loopbackV4, 4001⟩)).Possible h := hp
  have hiff := (regardless_iff_assigns hp' ⟨.success, hret⟩).1
  exact ⟨h, ⟨_, hr⟩, hiff.2 fun x hx => .inr ⟨nofun, hs x hx⟩⟩

/-- A code left over from something else. Bound to an endpoint that is open already, a socket and a
`udp_multiplexer` are not bound, and are with a clear code. Bound to a `udp_multiplexer` a socket is bound and
the old error reported, as it is for a `udp_multiplexer` that has been closed. And where `open` throws nothing is
bound and the code stays clear, or an error, as it was. -/
theorem stale_code_comes_back :
    (∃ h, Run Hub.Enabled Hub.step {}
        [.socket 0, .socket 0, .construct (some 0),
          .socketBind 0 ⟨.loopbackV4, 4000⟩ .success (.at ⟨.loopbackV4, 4000⟩)] h ∧
      (∃ h', h.step (.socketBind 1 ⟨.loopbackV4, 4000⟩ .connectionReset (.failed (.other 98))) = .ok h' ∧
        h'.ec = .connectionReset ∧ h'.multiplexerOf 1 = none) ∧
      (∃ h', h.step (.socketBind 1 ⟨.loopbackV4, 4000⟩ .success (.failed (.other 98))) = .ok h' ∧
        h'.ec = .success ∧ h'.multiplexerOf 1 = some 0) ∧
      (∃ h', h.step (.bindEndpoint 0 ⟨.loopbackV4, 4000⟩ .connectionReset (.failed (.other 98))) = .ok h' ∧
        h'.ec = .connectionReset ∧ h'.stateOf 0 = none) ∧
      (∃ h', h.step (.bindEndpoint 0 ⟨.loopbackV4, 4000⟩ .success (.failed (.other 98))) = .ok h' ∧
        h'.ec = .success ∧ h'.stateOf 0 = some (0, 0)) ∧
      ∀ ec, ∃ h', h.step (.socketBind 1 ⟨.loopbackV4, 4001⟩ ec .thrown) = .ok h' ∧ h'.ec = ec ∧
        h'.multiplexerOf 1 = none) ∧
    (∃ h, Run Hub.Enabled Hub.step {}
        [.construct (some 0), .bindEndpoint 0 ⟨.loopbackV4, 4000⟩ .success (.at ⟨.loopbackV4, 4000⟩), .socket 0,
          .socketBindMultiplexer 0 0 .connectionReset] h ∧
      h.ec = .connectionReset ∧ h.multiplexerOf 0 = some 0) ∧
    ∃ h, Run Hub.Enabled Hub.step {}
        [.construct (some 0), .bindEndpoint 0 ⟨.loopbackV4, 4000⟩ .success (.at ⟨.loopbackV4, 4000⟩),
          .close 0 .connectionReset] h ∧
      h.ec = .connectionReset ∧ h.stateOf 0 = none :=
  ⟨⟨_, run_of_exec (by rfl), ⟨_, rfl, by decide, by decide⟩, ⟨_, rfl, by decide, by decide⟩,
      ⟨_, rfl, by decide, by decide⟩, ⟨_, rfl, by decide, by decide⟩, fun _ => ⟨_, rfl, rfl, rfl⟩⟩,
    ⟨_, run_of_exec (by rfl), by decide, by decide⟩, _, run_of_exec (by rfl), by decide, by decide⟩

end AsioUtp
