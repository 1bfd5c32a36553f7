/-
Everything on one UDP port.

`World` has the sockets, libutp's callbacks and the context, and what the
`udp_multiplexer`s do to the receive loop are events of its environment;
`Port` has the `udp_multiplexer`s, and what the context does to the loop are
events of its. A `Node` is both, over one receive loop: each party's events
are its own, and the loop's are shared. Every run of a node is a run of its
world and a run of its port (`node_refines`), in which the other party does
exactly what the environment was allowed to, so that what holds of every run
of either holds of the node.
-/
import AsioUtp.Receives
import AsioUtp.Inventory

namespace AsioUtp

/-! ## The parties -/

/-- The port over the receive loop as `c` has it. -/
def Port.follow (p : Port) (c : Context) : Port := { p with multiplexer := c.multiplexer, alive := c.alive }

/-- The world over the receive loop as `p` has it. -/
def World.follow (w : World) (p : Port) : World :=
  { w with ctx := { w.ctx with multiplexer := p.multiplexer, alive := p.alive } }

/-- The events of a world that a `udp_multiplexer` is behind. -/
def World.Event.foreign : World.Event → Bool
  | .context (.register _) | .context (.unlink _) => true
  | _ => false

/-- The events of a world that concern nobody else. -/
def World.Event.own : World.Event → Bool
  | .context ev =>
    match ev with
    | .readEnd | .waited | .tickEnd | .destroyed => true
    | _ => false
  | _ => true

/-- The events of a port that the context is behind. -/
def Port.Event.foreign : Port.Event → Bool
  | .register | .unlink => true
  | _ => false

/-- The events of a port that concern nobody else. -/
def Port.Event.own : Port.Event → Bool
  | .bind | .asyncReceiveFrom _ _ _ | .asyncSendTo _ _ _ | .sent _ _ _ | .sendToSignal | .sentEnd | .close _
  | .setEndpoint _ _ => true
  | _ => false

/-- All that refers to one `udp_multiplexer_impl`. -/
structure Node where
  world : World := {}
  port : Port := {}
  multiplexer : port.multiplexer = world.ctx.multiplexer := by rfl
  alive : port.alive = world.ctx.alive := by rfl

namespace Node

open Machine

/-- The events of the receive loop, and the end of the multiplexer. -/
inductive Shared
  | received (ec : ErrorCode) (ep : Endpoint) (data : List UInt8)
  | next
  | flushed
  | destroy
  deriving Repr, DecidableEq

def Shared.context : Shared → Context.Event
  | .received ec ep data => .received ec ep data
  | .next => .next
  | .flushed => .flushed
  | .destroy => .destroy

def Shared.port : Shared → Port.Event
  | .received ec ep data => .received ec ep data
  | .next => .next
  | .flushed => .flushed
  | .destroy => .destroy

inductive Event
  | world (ev : World.Event)
  | port (ev : Port.Event)
  | shared (ev : Shared)
  deriving Repr, DecidableEq

/-- What the event is to the world. -/
def Event.toWorld : Event → Option World.Event
  | .world ev => some ev
  | .port _ => none
  | .shared ev => some (.context ev.context)

/-- What the event is to the port. -/
def Event.toPort : Event → Option Port.Event
  | .world _ => none
  | .port ev => some ev
  | .shared ev => some ev.port

def Enabled (n : Node) : Event → Prop
  | .world ev => n.world.Enabled ev ∧ ev.own = true
  | .port ev => n.port.Enabled ev ∧ ev.own = true
  | .shared ev => n.world.Enabled (.context ev.context) ∧ n.port.Enabled ev.port

instance (n : Node) : (ev : Event) → Decidable (n.Enabled ev)
  | .world _ => inferInstanceAs (Decidable (_ ∧ _))
  | .port _ => inferInstanceAs (Decidable (_ ∧ _))
  | .shared _ => inferInstanceAs (Decidable (_ ∧ _))

def step (n : Node) : Event → Except Fault Node
  | .world ev => do
    let w ← n.world.step ev
    return { world := w, port := n.port.follow w.ctx }
  | .port ev => do
    let p ← n.port.step ev
    return { world := n.world.follow p, port := p }
  | .shared ev => do
    let p ← n.port.step ev.port
    let w ← n.world.step (.context ev.context)
    return { world := w, port := p.follow w.ctx }

/-! ## What the context does is an event of the port -/

/-- What a context can do to the receive loop by itself. -/
inductive Tunes (c c' : Context) : Prop
  | same : c'.multiplexer = c.multiplexer → c'.alive = c.alive → Tunes c c'
  | register : c.alive = true → c.multiplexer.registerRecvHandler .context = .ok c'.multiplexer →
      c'.alive = c.alive → Tunes c c'
  | unlink : c.alive = true → c'.multiplexer = c.multiplexer.unlink .context → c'.alive = c.alive → Tunes c c'

theorem Tunes.congr {c d c' : Context} (h : Tunes c c') (hm : d.multiplexer = c.multiplexer) (ha : d.alive = c.alive) :
    Tunes d c' := by
  cases h with
  | same h1 h2 => exact .same (h1.trans hm.symm) (h2.trans ha.symm)
  | register h1 h2 h3 => exact .register (ha.trans h1) (by rw [hm]; exact h2) (h3.trans ha.symm)
  | unlink h1 h2 h3 => exact .unlink (ha.trans h1) (by rw [hm]; exact h2) (h3.trans ha.symm)

theorem startReceiving_tunes {c c' : Context} (h : c.startReceiving = .ok c') : Tunes c c' := by
  unfold Context.startReceiving at h
  split at h
  · next ha =>
    dsimp only at h
    split at h
    · cases h
      exact .same rfl rfl
    · simp only [Except.bind_ok_iff, Except.pure_ok_iff] at h
      obtain ⟨m, hm, rfl⟩ := h
      exact .register ha hm rfl
  · cases h
    exact .same rfl rfl

theorem stopReceiving_tunes (c : Context) : Tunes c c.stopReceiving := by
  by_cases ha : c.alive = true
  · exact .unlink ha (by simp [Context.stopReceiving, ha]) rfl
  · exact .same (by simp [Context.stopReceiving, ha]) rfl

theorem increment_tunes {c c' : Context} (h : c.incrementOutstandingOps = .ok c') : Tunes c c' := by
  unfold Context.incrementOutstandingOps at h
  dsimp only at h
  split at h
  · exact (startReceiving_tunes h).congr rfl rfl
  · cases h
    exact .same rfl rfl

theorem decrement_tunes (c : Context) : Tunes c c.decrementOutstandingOps := by
  unfold Context.decrementOutstandingOps
  generalize (if c.outstandingOpCount = 0 then sizeBound - 1 else c.outstandingOpCount - 1) = k
  dsimp only
  split
  · exact (stopReceiving_tunes { c with outstandingOpCount := k }).congr rfl rfl
  · exact .same rfl rfl

/-- What the context does in one move of the world, the loop's own moves apart. -/
theorem move_tunes {w w' : World} {l : World.Label} (hm : World.Move w l w') (hl : ∀ ev, l ≠ .loop ev) :
    Tunes w.ctx w'.ctx := by
  cases hm with
  | setup _ _ _ _ _ hinc => exact increment_tunes hinc
  | connect _ _ hinc => exact increment_tunes hinc
  | waiting _ _ _ hinc => exact increment_tunes hinc
  | @shut i ec _ _ _ =>
    obtain ⟨utp, heq, -⟩ := World.shutUtp_eq w i ec
    rw [heq]
    exact .same rfl rfl
  | finish _ hfin =>
    obtain ⟨-, c, hc, rfl⟩ := World.finishClose_ok_iff.1 hfin
    exact increment_tunes hc
  | decrement _ => exact decrement_tunes w.ctx
  | ran =>
    unfold World.ran
    split
    · exact .same rfl rfl
    · dsimp only
      split
      · exact decrement_tunes w.ctx
      · exact .same rfl rfl
  | loop => exact absurd rfl (hl _)
  | bind =>
    unfold World.bind
    split <;> exact .same rfl rfl
  | moveConstruct =>
    unfold World.moveConstruct
    dsimp only
    split <;> exact .same rfl rfl
  | _ => exact .same rfl rfl

/-- The port follows what the context does, by events the context is behind. -/
theorem tunes_run {p : Port} {c c' : Context} (h : Tunes c c') :
    ∃ evs, Run Port.Enabled Port.step (p.follow c) evs (p.follow c') ∧ ∀ ev ∈ evs, ev.foreign = true := by
  cases h with
  | same h1 h2 =>
    refine ⟨[], ?_, by simp⟩
    rw [Port.follow, Port.follow, h1, h2]
    exact .nil
  | register h1 h2 h3 =>
    have hstep : (p.follow c).step .register = .ok (p.follow c') := by
      simp only [Port.step, Port.follow, h2, h3]
      rfl
    exact ⟨[.register], .cons ⟨h1, Port.registerRecvHandler_enabled h2⟩ hstep .nil, by simp [Port.Event.foreign]⟩
  | unlink h1 h2 h3 =>
    have hstep : (p.follow c).step .unlink = .ok (p.follow c') := by
      simp only [Port.step, Port.follow, h2, h3]
    exact ⟨[.unlink], .cons h1 hstep .nil, by simp [Port.Event.foreign]⟩

/-- The runs of a port by events the context is behind. -/
def Tuned (p p' : Port) : Prop :=
  ∃ evs, Run Port.Enabled Port.step p evs p' ∧ ∀ ev ∈ evs, ev.foreign = true

theorem Tuned.refl (p : Port) : Tuned p p := ⟨[], .nil, by simp⟩

theorem Tuned.trans {p p' p'' : Port} (h : Tuned p p') (h' : Tuned p' p'') : Tuned p p'' := by
  obtain ⟨evs, hrun, hevs⟩ := h
  obtain ⟨evs', hrun', hevs'⟩ := h'
  refine ⟨evs ++ evs', hrun.append hrun', fun ev hev => ?_⟩
  rcases List.mem_append.1 hev with hev | hev
  · exact hevs ev hev
  · exact hevs' ev hev

theorem permits_loop {w : World} {ev : World.Event} {lev : Context.Event} (h : w.Permits ev (.loop lev)) :
    ev = .context lev := by
  cases ev with
  | context ev => cases h; rfl
  | stateChange u state rs => cases state <;> simp [World.Permits, World.Label.Closing, World.Label.WritesTo] at h
  | _ => simp [World.Permits, World.Label.Closing, World.Label.WritesTo, World.Label.Refuses, World.Label.ReadsOn] at h

theorem loop_tunes {c c' : Context} {ev : Context.Event} (hown : (World.Event.context ev).own = true)
    (h : c.step ev = .ok c') : Tunes c c' := by
  cases ev with
  | readEnd =>
    simp only [Context.step, Context.onReadEnd] at h
    split at h
    · cases h
      exact .same rfl rfl
    · exact (startReceiving_tunes h).congr rfl rfl
  | waited =>
    simp only [Context.step, Context.onWait] at h
    generalize (if c.alive = true then _ else _ : Ticker) = t at h
    split at h
    · simp only [Except.bind_ok_iff, Except.pure_ok_iff] at h
      obtain ⟨-, -, rfl⟩ := h
      exact .same rfl rfl
    · cases h
      exact .same rfl rfl
  | tickEnd =>
    cases h
    unfold Context.onTickEnd
    dsimp only
    split <;> exact .same rfl rfl
  | destroyed =>
    cases h
    exact (stopReceiving_tunes { c with utpCtx := false }).congr rfl rfl
  | _ => cases hown

theorem own_tuned {w w' : World} {ev : World.Event} {p : Port} (hw : World.Sound w) (hen : w.Enabled ev)
    (hown : ev.own = true) (h : w.step ev = .ok w') : Tuned (p.follow w.ctx) (p.follow w'.ctx) := by
  by_cases hctx : ∃ lev, ev = .context lev
  · obtain ⟨lev, rfl⟩ := hctx
    simp only [World.step, Except.bind_ok_iff, Except.pure_ok_iff] at h
    obtain ⟨c, hc, rfl⟩ := h
    exact tunes_run (loop_tunes hown hc)
  · have hpath := World.step_path hw hen h
    clear h
    induction hpath with
    | refl => exact .refl _
    | tail _ hm ih =>
      obtain ⟨l, hl, hm⟩ := hm
      refine ih.trans (tunes_run (move_tunes hm fun lev heq => hctx ⟨lev, ?_⟩))
      subst heq
      exact permits_loop hl

/-! ## What a `udp_multiplexer` does is an event of the world -/

/-- An own event of a port keeps it there, and registers or unlinks the entry of one state at most. -/
theorem own_loop {p p' : Port} {ev : Port.Event} (hp : p.Roster) (hen : p.Enabled ev) (hown : ev.own = true)
    (h : p.step ev = .ok p') : p'.alive = p.alive ∧ (p'.multiplexer = p.multiplexer ∨ p.alive = true ∧ ∃ k,
      p.multiplexer.registerRecvHandler (.state k) = .ok p'.multiplexer ∨
      p'.multiplexer = p.multiplexer.unlink (.state k)) := by
  have hloop := Port.loop_step hen h
  cases ev with
  | bind | setEndpoint _ _ =>
    cases h
    exact ⟨rfl, .inl rfl⟩
  | asyncSendTo k buffers dst =>
    cases h
    exact ⟨(Port.asyncSendTo_follows p k buffers dst).1.alive, .inl hloop.of_nil⟩
  | asyncReceiveFrom k ep buffers =>
    refine ⟨(Port.asyncReceiveFrom_follows h).1.alive, ?_⟩
    simp only [Port.loopEvents] at hloop
    split at hloop
    · next ho => exact .inr ⟨(hp.owned k ho).2.2, k, .inl hloop.of_single⟩
    · exact .inl hloop.of_nil
  | sent s ec size =>
    cases h
    exact ⟨(Port.sendCompleted_follows p s ec size).1.alive, .inl hloop.of_nil⟩
  | sendToSignal => exact ⟨(Port.sendToSignal_follows h).1.alive, .inl hloop.of_nil⟩
  | sentEnd =>
    cases h
    have halive := (Port.onSentEnd_follows p).1.alive
    refine ⟨halive, ?_⟩
    obtain ⟨c, rest, hcomp⟩ := List.exists_cons_of_ne_nil hen
    simp only [Port.loopEvents, hcomp] at hloop
    split at hloop
    · next hr => exact .inr ⟨halive ▸ hr.1, c.send.state, .inr (Except.ok.inj hloop.of_single).symm⟩
    · exact .inl hloop.of_nil
  | close k =>
    cases h
    have halive := Port.close_alive p k
    refine ⟨halive, ?_⟩
    simp only [Port.loopEvents] at hloop
    split at hloop
    · next hr => exact .inr ⟨halive ▸ hr.2.1, k, .inr (Except.ok.inj hloop.of_single).symm⟩
    · exact .inl hloop.of_nil
  | _ => cases hown

/-- The world follows what a `udp_multiplexer` does, by events it is behind. -/
theorem own_followed {w : World} {p p' : Port} {ev : Port.Event} (hm : p.multiplexer = w.ctx.multiplexer)
    (ha : p.alive = w.ctx.alive) (hp : p.Roster) (hen : p.Enabled ev) (hown : ev.own = true)
    (h : p.step ev = .ok p') :
    ∃ evs, Run World.Enabled World.step w evs (w.follow p') ∧ ∀ ev ∈ evs, ev.foreign = true := by
  obtain ⟨halive, hloop⟩ := own_loop hp hen hown h
  rw [ha] at halive hloop
  rw [hm] at hloop
  have hfollow : w.follow p' = { w with ctx := { w.ctx with multiplexer := p'.multiplexer } } := by
    rw [World.follow, halive]
  rw [hfollow]
  rcases hloop with heq | ⟨hup, k, hreg | heq⟩
  · refine ⟨[], ?_, by simp⟩
    rw [heq]
    exact .nil
  · refine ⟨[.context (.register k)], .cons ⟨⟨hup, Port.registerRecvHandler_enabled hreg⟩, trivial⟩ ?_ .nil,
      by simp [World.Event.foreign]⟩
    simp only [World.step, Context.step, hreg]
    rfl
  · refine ⟨[.context (.unlink k)], .cons ⟨hup, trivial⟩ ?_ .nil, by simp [World.Event.foreign]⟩
    rw [heq]
    rfl

/-! ## What is shared -/

theorem shared_agree {n : Node} {ev : Shared} {w : World} {p : Port} (hen : n.Enabled (.shared ev))
    (hp : n.port.step ev.port = .ok p) (hw : n.world.step (.context ev.context) = .ok w) :
    p = p.follow w.ctx := by
  simp only [World.step, Except.bind_ok_iff, Except.pure_ok_iff] at hw
  obtain ⟨c, hc, rfl⟩ := hw
  show p = p.follow c
  suffices h : p.multiplexer = c.multiplexer ∧ p.alive = c.alive by
    obtain ⟨h1, h2⟩ := h
    rw [Port.follow, ← h1, ← h2]
  have hm := n.multiplexer
  have ha := n.alive
  cases ev with
  | destroy =>
    cases hp
    cases hc
    exact ⟨hm, rfl⟩
  | received ec ep data =>
    simp only [Shared.port, Shared.context, Port.step, Context.step, Except.bind_ok_iff, Except.pure_ok_iff] at hp hc
    obtain ⟨-, -, m, h1, rfl⟩ := hp
    obtain ⟨m', h2, rfl⟩ := hc
    rw [hm, h2] at h1
    exact ⟨(Except.ok.inj h1).symm, ha⟩
  | flushed =>
    simp only [Shared.port, Shared.context, Port.step, Context.step, Except.bind_ok_iff, Except.pure_ok_iff] at hp hc
    obtain ⟨m, h1, rfl⟩ := hp
    obtain ⟨m', h2, rfl⟩ := hc
    rw [hm, h2] at h1
    exact ⟨(Except.ok.inj h1).symm, ha⟩
  | next =>
    have h1 : n.port.multiplexer.step .next = .ok p.multiplexer := (Port.loop_next hen.2.2 hp).of_single
    simp only [Shared.context, Context.step, Context.flushNext, Except.bind_ok_iff, Except.pure_ok_iff] at hc
    obtain ⟨m, h2, rfl⟩ := hc
    have h2 : n.world.ctx.multiplexer.step .next = .ok m := h2
    rw [hm, h2] at h1
    have halive : p.alive = n.port.alive := (Port.flushNext_follows hp).1.alive
    rw [halive, ha, ← Except.ok.inj h1]
    split
    · unfold Context.onRead
      split <;> exact ⟨rfl, rfl⟩
    · exact ⟨rfl, rfl⟩

/-! ## Every run -/

theorem own_not_foreign_world {ev : World.Event} (h : ev.own = true) : ev.foreign = false := by
  cases ev with
  | context ev => cases ev <;> first | rfl | cases h
  | _ => rfl

theorem own_not_foreign_port {ev : Port.Event} (h : ev.own = true) : ev.foreign = false := by
  cases ev <;> first | rfl | cases h

/-- One event of a node is a run of each party, whose own part is what the event is to it. -/
theorem node_step {n n' : Node} {ev : Event} (hw : World.Sound n.world) (hp : n.port.Roster) (hen : n.Enabled ev)
    (h : n.step ev = .ok n') : ∃ wevs pevs, Run World.Enabled World.step n.world wevs n'.world ∧
      Run Port.Enabled Port.step n.port pevs n'.port ∧
      wevs.filter (fun e => !e.foreign) = ev.toWorld.toList ∧ pevs.filter (fun e => !e.foreign) = ev.toPort.toList := by
  have hfollow : n.port.follow n.world.ctx = n.port := by rw [Port.follow, ← n.multiplexer, ← n.alive]
  cases ev with
  | world ev =>
    simp only [step, Except.bind_ok_iff, Except.pure_ok_iff] at h
    obtain ⟨w, hs, rfl⟩ := h
    obtain ⟨pevs, hrun, hpevs⟩ := own_tuned (p := n.port) hw hen.1 hen.2 hs
    rw [hfollow] at hrun
    refine ⟨[ev], pevs, .cons hen.1 hs .nil, hrun, ?_, ?_⟩
    · simp [Event.toWorld, own_not_foreign_world hen.2]
    · simpa [Event.toPort, List.filter_eq_nil_iff] using hpevs
  | port ev =>
    simp only [step, Except.bind_ok_iff, Except.pure_ok_iff] at h
    obtain ⟨p, hs, rfl⟩ := h
    obtain ⟨wevs, hrun, hwevs⟩ := own_followed n.multiplexer n.alive hp hen.1 hen.2 hs
    refine ⟨wevs, [ev], hrun, .cons hen.1 hs .nil, ?_, ?_⟩
    · simpa [Event.toWorld, List.filter_eq_nil_iff] using hwevs
    · simp [Event.toPort, own_not_foreign_port hen.2]
  | shared ev =>
    simp only [step, Except.bind_ok_iff, Except.pure_ok_iff] at h
    obtain ⟨p, hs, w, hs', rfl⟩ := h
    refine ⟨[.context ev.context], [ev.port], .cons hen.1 hs' .nil, ?_, by cases ev <;> rfl, by cases ev <;> rfl⟩
    dsimp only
    rw [← shared_agree hen hs hs']
    exact .cons hen.2 hs .nil

/-- **Sharing a port changes nothing for those who share it.** Every run of a node is a run of its
sockets and their context, and a run of its `udp_multiplexer`s, each by its own events of the node
in their order and by events its environment has; and both are, on the one receive loop, a run of
that loop. -/
theorem node_refines {n : Node} {evs : List Event} (h : Run Enabled step {} evs n) :
    ∃ wevs pevs, Run World.Enabled World.step {} wevs n.world ∧ Run Port.Enabled Port.step {} pevs n.port ∧
      wevs.filter (fun e => !e.foreign) = evs.filterMap Event.toWorld ∧
      pevs.filter (fun e => !e.foreign) = evs.filterMap Event.toPort ∧
      Run Multiplexer.Enabled Multiplexer.step {} (answers Port.step Port.loopEvents {} pevs)
        n.world.ctx.multiplexer := by
  have key : ∃ wevs pevs, Run World.Enabled World.step {} wevs n.world ∧ Run Port.Enabled Port.step {} pevs n.port ∧
      wevs.filter (fun e => !e.foreign) = evs.filterMap Event.toWorld ∧
      pevs.filter (fun e => !e.foreign) = evs.filterMap Event.toPort := by
    refine h.induction_snoc (fun evs n => ∃ wevs pevs, Run World.Enabled World.step {} wevs n.world ∧
      Run Port.Enabled Port.step {} pevs n.port ∧ wevs.filter (fun e => !e.foreign) = evs.filterMap Event.toWorld ∧
      pevs.filter (fun e => !e.foreign) = evs.filterMap Event.toPort) ⟨[], [], .nil, .nil, rfl, rfl⟩ ?_
    intro evs n ev n' _ hn hok hstep
    obtain ⟨wevs, pevs, hw, hp, hwevs, hpevs⟩ := hn
    obtain ⟨wevs', pevs', hw', hp', hwevs', hpevs'⟩ :=
      node_step (World.reachable_sound ⟨_, hw⟩) (Port.run_mailed hp).2.1 hok hstep
    refine ⟨wevs ++ wevs', pevs ++ pevs', hw.append hw', hp.append hp', ?_, ?_⟩
    · rw [List.filter_append, hwevs, hwevs', List.filterMap_append]
      cases hev : ev.toWorld <;> simp [hev]
    · rw [List.filter_append, hpevs, hpevs', List.filterMap_append]
      cases hev : ev.toPort <;> simp [hev]
  obtain ⟨wevs, pevs, hw, hp, hwevs, hpevs⟩ := key
  refine ⟨wevs, pevs, hw, hp, hwevs, hpevs, ?_⟩
  rw [← n.multiplexer]
  exact Port.run_loop hp

/-- A socket accepts and a `udp_multiplexer` receives on one port: a datagram is handed to both,
and both go on without the other. -/
theorem node_refines_accepting :
    ∃ n : Node, Run Enabled step {}
        [.world .socket, .world (.bind 0), .world (.asyncAccept 0), .port .bind, .port (.setEndpoint 0 (some default)),
          .port (.asyncReceiveFrom 0 0 [[0]]), .shared (.received .success default [7]), .shared .next,
          .world (.context .readEnd), .shared .next, .shared .flushed, .port (.close 0)] n ∧
      n.port.posted = [⟨0, .success, 1⟩] ∧ .context ∈ n.world.ctx.multiplexer.recvHandlers ∧
      Reachable World.Enabled World.step {} n.world ∧ Reachable Port.Enabled Port.step {} n.port := by
  obtain ⟨n, hrun, hposted, hlinked⟩ := exists_run Enabled step {}
    [.world .socket, .world (.bind 0), .world (.asyncAccept 0), .port .bind, .port (.setEndpoint 0 (some default)),
      .port (.asyncReceiveFrom 0 0 [[0]]), .shared (.received .success default [7]), .shared .next,
      .world (.context .readEnd), .shared .next, .shared .flushed, .port (.close 0)]
    (fun n => n.port.posted = [⟨0, .success, 1⟩] ∧ .context ∈ n.world.ctx.multiplexer.recvHandlers) (by decide)
  obtain ⟨wevs, pevs, hw, hp, -⟩ := node_refines hrun
  exact ⟨n, hrun, hposted, hlinked, ⟨wevs, hw⟩, ⟨pevs, hp⟩⟩

end Node

end AsioUtp
