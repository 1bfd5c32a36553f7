/-
The receive loop under the ports.

`AsioUtp.Multiplexer` says what a multiplexer does when entries are registered
and unlinked in any order the outside likes. Here the outside is a port: its
`udp_multiplexer`s register their entry when a receive is started, and what
unlinks it is the end of the state. Every run of a port is a run of its
receive loop (`run_loop`), so that what holds of every run of the loop
holds of the port's.
-/
import AsioUtp.UdpMultiplexerFacts
import AsioUtp.Lib.History

namespace AsioUtp.Port

open Machine Multiplexer

/-- Is the entry of state `k` unlinked by `~recv_entry` once the port is `p`? -/
def Releases (p : Port) (k : Nat) : Prop := p.alive = true ∧ ¬ p.Held k

instance (p : Port) (k : Nat) : Decidable (p.Releases k) := inferInstanceAs (Decidable (_ ∧ ¬ _))

/-- What an event of the port that leads from `p` to `p'` is to the receive loop. -/
def loopEvents (p : Port) (ev : Event) (p' : Port) : List (Multiplexer.Event Entry) :=
  match ev with
  | .asyncReceiveFrom k _ _ => if (p.states k).owned then [.register (.state k)] else []
  | .sentEnd =>
    match p.completing with
    | [] => []
    | c :: _ => if p'.Releases c.send.state then [.unlink (.state c.send.state)] else []
  | .close k => if (p.states k).owned ∧ p'.Releases k then [.unlink (.state k)] else []
  | .closeLast k => if (p.states k).owned ∧ (p.close k).Releases k then [.unlink (.state k)] else []
  | .register => [.register .context]
  | .unlink => [.unlink .context]
  | .received ec ep data => [.received ec ep data]
  | .next => [.next]
  | .flushed => [.flushed]
  | .bind | .asyncSendTo _ _ _ | .sent _ _ _ | .sendToSignal | .setEndpoint _ _ | .destroy => []

/-! ## One step -/

theorem registerRecvHandler_enabled {m m' : Multiplexer Entry} {e : Entry} (h : m.registerRecvHandler e = .ok m') :
    ¬ m.Linked e := by
  simp only [registerRecvHandler, Except.bind_ok_iff, Except.require_ok_iff] at h
  obtain ⟨-, hl, -⟩ := h
  exact hl

theorem loop_register {m m' : Multiplexer Entry} {e : Entry} (h : m.registerRecvHandler e = .ok m') :
    Run Multiplexer.Enabled Multiplexer.step m [.register e] m' :=
  Run.single (registerRecvHandler_enabled h) h

/-- A holder lets go of state `k`. -/
theorem loop_release (p : Port) (k : Nat) :
    Run Multiplexer.Enabled Multiplexer.step p.multiplexer
      (if (p.release k).Releases k then [.unlink (.state k)] else []) (p.release k).multiplexer := by
  have hsame : (p.release k).Releases k ↔ p.Releases k := by
    unfold release
    split <;> rfl
  rw [if_congr hsame rfl rfl]
  by_cases hr : p.Releases k
  · obtain ⟨ha, hheld⟩ := hr
    rw [if_pos ⟨ha, hheld⟩]
    simp only [release, if_neg hheld, if_pos ha]
    exact Run.single trivial rfl
  · rw [if_neg hr]
    have hmux : (p.release k).multiplexer = p.multiplexer := by
      unfold release
      split
      · rfl
      · next hheld => exact if_neg fun ha => hr ⟨ha, hheld⟩
    rw [hmux]
    exact .nil

theorem onSent_multiplexer (p : Port) (k : Nat) (ec : ErrorCode) (size : Nat) :
    (p.onSent k ec size).multiplexer = p.multiplexer := by
  unfold onSent
  split <;> rfl

/-- The completion of a send lets go of its state. -/
theorem loop_finishSend (p : Port) (s : Send) (ec : ErrorCode) (size : Nat) :
    Run Multiplexer.Enabled Multiplexer.step p.multiplexer
      (if (p.finishSend s ec size).Releases s.state then [.unlink (.state s.state)] else [])
      (p.finishSend s ec size).multiplexer := by
  have := loop_release (onSent { p with inFlight := p.inFlight.erase s } s.state ec size) s.state
  rwa [onSent_multiplexer] at this

/-- Without a multiplexer nothing is unlinked. -/
theorem sendCompleted_multiplexer (p : Port) (s : Send) (ec : ErrorCode) (size : Nat) :
    (p.sendCompleted s ec size).multiplexer = p.multiplexer := by
  unfold sendCompleted
  split
  · rfl
  · next hdead =>
    have hrun := loop_finishSend p s .operationAborted 0
    rw [if_neg fun hr => hdead ?_] at hrun
    · exact hrun.of_nil
    · have halive := hr.1
      rw [finishSend, release_alive] at halive
      unfold onSent at halive
      split at halive <;> exact halive

theorem sendToSignal_multiplexer {p p' : Port} (h : p.sendToSignal = .ok p') : p'.multiplexer = p.multiplexer := by
  unfold sendToSignal at h
  split at h
  · cases h
    rfl
  · split at h <;> cases h
    rfl

theorem loop_close (p : Port) (k : Nat) :
    Run Multiplexer.Enabled Multiplexer.step p.multiplexer (p.loopEvents (.close k) (p.close k))
      (p.close k).multiplexer := by
  by_cases hown : (p.states k).owned = true
  · obtain ⟨q, hq, hm, -⟩ := close_of_owned hown
    have hrelease := loop_release q k
    rw [hm] at hrelease
    simpa only [loopEvents, hown, true_and, hq] using hrelease
  · have hclose : p.close k = p := by simp [close, hown]
    simp only [loopEvents, hown, hclose]
    exact .nil

/-- The loop pops its next entry whatever its handler does. -/
theorem loop_next {p p' : Port} (hpend : p.multiplexer.pending ≠ []) (h : p.flushNext = .ok p') :
    Run Multiplexer.Enabled Multiplexer.step p.multiplexer [.next] p'.multiplexer := by
  simp only [flushNext, Except.bind_ok_iff] at h
  obtain ⟨m, hm, h⟩ := h
  have hstep : p.multiplexer.step .next = .ok m := by
    unfold Multiplexer.flushNext at hm
    unfold Multiplexer.step Multiplexer.flushNext
    split at hm
    · simp only [Except.bind_ok_iff, Except.require_ok_iff, Except.pure_ok_iff] at hm ⊢
      obtain ⟨u, -, hm⟩ := hm
      exact ⟨u, trivial, hm⟩
    · exact hm
  have hmux : p'.multiplexer = m := by
    split at h
    · exact (sameEntries_handleRead h).2.1
    · cases h
      rfl
  rw [hmux]
  exact Run.single hpend hstep

theorem loop_step {p p' : Port} {ev : Event} (hen : p.Enabled ev) (h : p.step ev = .ok p') :
    Run Multiplexer.Enabled Multiplexer.step p.multiplexer (p.loopEvents ev p') p'.multiplexer := by
  cases ev with
  | bind | setEndpoint _ _ | destroy =>
    cases h
    exact .nil
  | asyncSendTo k buffers dst =>
    cases h
    simp only [asyncSendTo, loopEvents]
    split <;> exact .nil
  | asyncReceiveFrom k ep buffers =>
    simp only [step, asyncReceiveFrom] at h
    simp only [loopEvents]
    split at h
    · next hown =>
      simp only [Except.bind_ok_iff, Except.require_ok_iff, Except.pure_ok_iff] at h
      obtain ⟨-, -, m, hm, rfl⟩ := h
      rw [if_pos hown]
      exact loop_register hm
    · next hown =>
      cases h
      rw [if_neg hown]
      exact .nil
  | sent s ec size =>
    cases h
    rw [sendCompleted_multiplexer]
    exact .nil
  | sendToSignal =>
    rw [sendToSignal_multiplexer h]
    exact .nil
  | sentEnd =>
    cases h
    obtain ⟨c, rest, hcomp⟩ := List.exists_cons_of_ne_nil hen
    simp only [loopEvents, onSentEnd, hcomp]
    exact loop_finishSend { p with completing := rest } c.send c.ec c.size
  | close k =>
    cases h
    exact loop_close p k
  | closeLast k =>
    cases h
    exact loop_close p k
  | unlink =>
    cases h
    exact Run.single trivial rfl
  | register =>
    simp only [step, Except.bind_ok_iff, Except.pure_ok_iff] at h
    obtain ⟨m, hm, rfl⟩ := h
    exact loop_register hm
  | received ec ep data =>
    simp only [step, Except.bind_ok_iff, Except.pure_ok_iff] at h
    obtain ⟨-, -, m, hm, rfl⟩ := h
    exact Run.single hen hm
  | next => exact loop_next hen.2 h
  | flushed =>
    simp only [step, Except.bind_ok_iff, Except.pure_ok_iff] at h
    obtain ⟨m, hm, rfl⟩ := h
    exact Run.single hen.2 hm

/-! ## Whole runs -/

/-- **A port runs its receive loop.** Every run of a port is, on its multiplexer, the run of the
receive loop by the events the port's are to it. -/
theorem run_loop {p : Port} {evs : List Event} (h : Run Enabled step {} evs p) :
    Run Multiplexer.Enabled Multiplexer.step {} (answers step loopEvents {} evs) p.multiplexer := by
  have hsim : ∃ m, Run Multiplexer.Enabled Multiplexer.step {} (answers step loopEvents {} evs) m ∧ p.multiplexer = m :=
    h.simulated (fun _ => True) (fun _ => True) (fun _ _ _ _ _ _ => trivial) (fun _ _ _ _ _ _ _ => trivial)
      (fun p m => p.multiplexer = m)
      (fun p m ev p' _ _ hm hen hstep => ⟨p'.multiplexer, hm ▸ loop_step hen hstep, rfl⟩) trivial trivial rfl
  obtain ⟨m, hrun, rfl⟩ := hsim
  exact hrun

end AsioUtp.Port
