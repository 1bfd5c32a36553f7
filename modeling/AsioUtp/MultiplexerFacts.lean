/-
The receive loop of `udp_multiplexer_impl`: in every state it reaches at most
one receive is outstanding and none while a flush runs, registered entries
are always waited for, and an unwanted receive has been cancelled
(`receive_loop`). The UDP socket is open throughout (see `Multiplexer.lean`).
-/
import AsioUtp.Multiplexer
import Mathlib.Data.List.Nodup

namespace AsioUtp.Multiplexer

open Machine

variable {ι : Type}

/-! ## What the functions answer -/

theorem startReceiving_eq {m : Multiplexer ι} (h : m.isReceiving = false) :
    m.startReceiving = .ok { m with isReceiving := true, udpSocket := m.udpSocket.asyncReceiveFrom } := by
  simp only [startReceiving, Except.require, h, if_true, Except.ok_bind]
  rfl

theorem receiveAgain_eq (m : Multiplexer ι) :
    m.receiveAgain = .ok (if m.recvHandlers = [] then { m with isReceiving := false }
      else { m with isReceiving := true, udpSocket := m.udpSocket.asyncReceiveFrom }) := by
  unfold receiveAgain
  dsimp only
  split
  · rfl
  · exact startReceiving_eq rfl

theorem onReceive_eq {m : Multiplexer ι} {ec : ErrorCode} {size : Nat} (h : m.isReceiving = true) :
    m.onReceive ec size =
      if ec = .operationAborted ∧ m.udpSocket.isOpen = true then m.receiveAgain
      else .ok (m.flushHandlers ec size) := by
  simp only [onReceive, Except.require, h, if_true, Except.ok_bind]
  rfl

@[simp] theorem pending_flushHandlers (m : Multiplexer ι) (ec : ErrorCode) (size : Nat) :
    (m.flushHandlers ec size).pending = m.recvHandlers := rfl

@[simp] theorem pending_none {m : Multiplexer ι} (h : m.flushing = none) : m.pending = [] := by
  simp [pending, h]

/-- The entries left after `onRecvEntryUnlinked` and its flush are those before. -/
theorem onRecvEntryUnlinked_lists (m : Multiplexer ι) :
    m.onRecvEntryUnlinked.recvHandlers = m.recvHandlers ∧ m.onRecvEntryUnlinked.flushing = m.flushing ∧
      m.onRecvEntryUnlinked.isReceiving = m.isReceiving ∧
      m.onRecvEntryUnlinked.udpSocket.isOpen = m.udpSocket.isOpen := by
  unfold onRecvEntryUnlinked
  split <;> simp [UdpSocket.cancel]

/-! ## The loop invariant -/

/-- No flush is running: one receive is outstanding, cancelled if nobody
waits for it; or none is, and then nobody waits. -/
inductive Idle (m : Multiplexer ι) : Prop
  | receiving (c : Bool) : m.isReceiving = true → m.udpSocket.receives = [c] →
      (m.recvHandlers = [] → c = true) → Idle m
  | stopped : m.isReceiving = false → m.udpSocket.receives = [] → m.recvHandlers = [] → Idle m

structure Sound (m : Multiplexer ι) : Prop where
  isOpen : m.udpSocket.isOpen = true
  nodup : (m.recvHandlers ++ m.pending).Nodup
  idle : m.flushing = none → Idle m
  flush : m.flushing ≠ none → m.isReceiving = true ∧ m.udpSocket.receives = []

theorem sound_init : Sound ({} : Multiplexer ι) where
  isOpen := rfl
  nodup := by simp [pending]
  idle _ := .stopped rfl rfl rfl
  flush h := by simp at h

/-- The end of a completion leaves the loop idle. -/
theorem sound_receiveAgain {m m' : Multiplexer ι} (hopen : m.udpSocket.isOpen = true)
    (hnodup : m.recvHandlers.Nodup) (hflush : m.flushing = none) (hrec : m.udpSocket.receives = [])
    (h : m.receiveAgain = .ok m') : Sound m' := by
  rw [receiveAgain_eq] at h
  cases h
  split
  · next hnil =>
    exact ⟨hopen, by simp [hflush, hnil], fun _ => .stopped rfl hrec hnil, fun hf => absurd hflush hf⟩
  · next hne =>
    refine ⟨hopen, by simpa [hflush] using hnodup, fun _ => ?_, fun hf => absurd hflush hf⟩
    exact .receiving false rfl (by simp [UdpSocket.asyncReceiveFrom, hrec]) fun hnil => absurd hnil hne

/-- A completion that ends with nobody registered leaves no receive. -/
theorem receiveAgain_receives {m m' : Multiplexer ι} (hrec : m.udpSocket.receives = [])
    (h : m.receiveAgain = .ok m') (hnil : m'.recvHandlers = []) : m'.udpSocket.receives = [] := by
  rw [receiveAgain_eq] at h
  cases h
  split at hnil
  · next hm => rw [if_pos hm]; exact hrec
  · next hm => exact absurd hnil hm

theorem sound_received {m m' : Multiplexer ι} {ec : ErrorCode} {ep : Endpoint} {data : List UInt8} {size : Nat}
    (hm : Sound m) (hrec : m.udpSocket.receives ≠ []) (hf : m.flushing = none)
    (h : (m.receiveCompleted ep data).onReceive ec size = .ok m') : Sound m' := by
  cases hm.idle hf with
  | stopped _ h2 => exact absurd h2 hrec
  | receiving c h1 h2 _ =>
    rw [onReceive_eq (by exact h1)] at h
    have hnodup : m.recvHandlers.Nodup := (List.nodup_append.1 hm.nodup).1
    split at h
    · refine sound_receiveAgain (m := m.receiveCompleted ep data) hm.isOpen hnodup hf ?_ h
      simp [receiveCompleted, UdpSocket.receiveCompleted, h2]
    · cases h
      refine ⟨hm.isOpen, ?_, fun h => by simp [flushHandlers] at h, fun _ => ⟨h1, ?_⟩⟩
      · rw [pending_flushHandlers]
        exact hnodup
      · simp [flushHandlers, receiveCompleted, UdpSocket.receiveCompleted, h2]

theorem sound_next {m m' : Multiplexer ι} {handler : ι → Bool} (hm : Sound m)
    (h : m.flushNext handler = .ok m') : Sound m' := by
  unfold flushNext at h
  split at h
  · next ec size e rest hf =>
    simp only [Except.bind_ok_iff, Except.pure_ok_iff] at h
    obtain ⟨_, -, rfl⟩ := h
    have hflush := hm.flush (by simp [hf])
    refine ⟨hm.isOpen, ?_, fun h => by simp at h, fun _ => hflush⟩
    have := hm.nodup
    simp only [pending, hf, Option.map_some, Option.getD_some, List.nodup_append, List.nodup_cons,
      List.mem_cons] at this ⊢
    grind
  · cases h; exact hm

theorem sound_flushed {m m' : Multiplexer ι} (hm : Sound m) (hf : m.flushing ≠ none)
    (h : m.flushed = .ok m') : Sound m' :=
  sound_receiveAgain (m := { m with flushing := none }) hm.isOpen (List.nodup_append.1 hm.nodup).1 rfl
    (hm.flush hf).2 h

theorem linked_received {m m' : Multiplexer ι} {ec : ErrorCode} {ep : Endpoint} {data : List UInt8} {size : Nat}
    {x : ι} (hm : Sound m) (hrec : m.udpSocket.receives ≠ []) (hf : m.flushing = none)
    (h : (m.receiveCompleted ep data).onReceive ec size = .ok m') : m'.Linked x ↔ m.Linked x := by
  cases hm.idle hf with
  | stopped _ h2 => exact absurd h2 hrec
  | receiving c h1 _ _ =>
    rw [onReceive_eq (by exact h1), receiveAgain_eq] at h
    split at h
    · cases h
      split <;> simp [Linked, pending, receiveCompleted, hf]
    · cases h
      simp [Linked, pending, flushHandlers, receiveCompleted, hf]

/-- The entry a flush calls is no longer linked when its handler runs. -/
theorem linked_next {m m' : Multiplexer ι} {handler : ι → Bool} {e x : ι} (hm : Sound m)
    (he : m.pending.head? = some e) (h : m.flushNext handler = .ok m') :
    m'.Linked x ↔ x ≠ e ∧ m.Linked x := by
  unfold flushNext at h
  split at h
  · next ec size e' rest hf =>
    have he' : e' = e := by simpa [pending, hf] using he
    subst he'
    simp only [Except.bind_ok_iff, Except.pure_ok_iff] at h
    obtain ⟨_, -, rfl⟩ := h
    have hnodup := hm.nodup
    simp only [pending, hf, Option.map_some, Option.getD_some, List.nodup_append, List.nodup_cons,
      List.mem_cons] at hnodup
    simp only [Linked, pending, hf, Option.map_some, Option.getD_some, List.mem_cons]
    grind
  · next hno =>
    cases hf : m.flushing with
    | none => simp [pending, hf] at he
    | some f =>
      obtain ⟨ec, size, _ | ⟨a, rest⟩⟩ := f
      · simp [pending, hf] at he
      · exact absurd hf (hno ec size a rest)

theorem flushing_next {m m' : Multiplexer ι} {handler : ι → Bool} (h : m.flushNext handler = .ok m') :
    m'.flushing = none ↔ m.flushing = none := by
  unfold flushNext at h
  split at h
  · next hf =>
    simp only [Except.bind_ok_iff, Except.pure_ok_iff] at h
    obtain ⟨_, -, rfl⟩ := h
    simp [hf]
  · cases h; rfl

theorem flushed_eq {m m' : Multiplexer ι} (h : m.flushed = .ok m') :
    m'.flushing = none ∧ m'.recvHandlers = m.recvHandlers := by
  rw [flushed, receiveAgain_eq] at h
  cases h
  split <;> exact ⟨rfl, rfl⟩

theorem linked_flushed {m m' : Multiplexer ι} {x : ι} (hp : m.pending = []) (h : m.flushed = .ok m') :
    m'.Linked x ↔ m.Linked x := by
  obtain ⟨h1, h2⟩ := flushed_eq h
  simp [Linked, h1, h2, hp]

variable [DecidableEq ι]

theorem registerRecvHandler_eq {m : Multiplexer ι} {e : ι} (h : ¬ m.Linked e) :
    m.registerRecvHandler e = .ok (if m.isReceiving then { m with recvHandlers := m.recvHandlers ++ [e] }
      else { m with
        recvHandlers := m.recvHandlers ++ [e]
        isReceiving := true
        udpSocket := m.udpSocket.asyncReceiveFrom }) := by
  simp only [registerRecvHandler, Except.require, h, not_false_eq_true, if_true, Except.ok_bind]
  split
  · rfl
  · next hr => exact startReceiving_eq (by simpa using hr)

theorem pending_remove (m : Multiplexer ι) (e : ι) : (m.remove e).pending = m.pending.erase e := by
  cases h : m.flushing <;> simp [pending, remove, h]

theorem sound_register {m m' : Multiplexer ι} {e : ι} (hm : Sound m) (he : ¬ m.Linked e)
    (h : m.registerRecvHandler e = .ok m') : Sound m' := by
  have hnodup : ((m.recvHandlers ++ [e]) ++ m.pending).Nodup := by
    have := hm.nodup
    simp only [Linked, not_or] at he
    simp only [List.nodup_append, List.nodup_cons, List.mem_append, List.mem_singleton] at this ⊢
    grind
  rw [registerRecvHandler_eq he] at h
  cases h
  by_cases hr : m.isReceiving = true
  · rw [if_pos hr]
    refine ⟨hm.isOpen, hnodup, fun hf => ?_, hm.flush⟩
    cases hm.idle hf with
    | receiving c h1 h2 _ => exact .receiving c h1 h2 (by simp)
    | stopped h1 => rw [hr] at h1; cases h1
  · rw [if_neg hr]
    refine ⟨hm.isOpen, hnodup, fun hf => ?_, fun hf => absurd (hm.flush hf).1 hr⟩
    cases hm.idle hf with
    | receiving _ h1 => exact absurd h1 hr
    | stopped _ h2 _ => exact .receiving false rfl (by simp [UdpSocket.asyncReceiveFrom, h2]) (by simp)

theorem sound_unlink {m : Multiplexer ι} {e : ι} (hm : Sound m) : Sound (m.unlink e) := by
  unfold unlink
  split
  · obtain ⟨hl, hf, hr, ho⟩ := onRecvEntryUnlinked_lists (m.remove e)
    have hnone : (m.remove e).flushing = none ↔ m.flushing = none := by simp [remove]
    refine ⟨by rw [ho]; exact hm.isOpen, ?_, fun h => ?_, fun h => ?_⟩
    · rw [hl, pending, hf, ← pending, pending_remove]
      have := hm.nodup
      simp only [List.nodup_append] at this ⊢
      refine ⟨this.1.erase e, this.2.1.erase e, fun a ha b hb => this.2.2 a ?_ b ?_⟩
      · exact List.mem_of_mem_erase ha
      · exact List.mem_of_mem_erase hb
    · rw [hf, hnone] at h
      cases hm.idle h with
      | receiving c h1 h2 h3 =>
        -- The receive is cancelled just when the last entry leaves.
        by_cases hnil : (m.remove e).recvHandlers = []
        · refine .receiving true (by rw [hr]; exact h1) ?_ fun _ => rfl
          have hopen : (m.remove e).udpSocket.isOpen = true := hm.isOpen
          have h1' : (m.remove e).isReceiving = true := h1
          simp only [onRecvEntryUnlinked, h1', hnil, hopen, and_self, if_true]
          simp [UdpSocket.cancel, remove, h2]
        · refine .receiving c (by rw [hr]; exact h1) ?_ fun hn => absurd (hl ▸ hn) hnil
          simp only [onRecvEntryUnlinked, hnil, false_and, and_false, if_false]
          exact h2
      | stopped h1 h2 h3 =>
        refine .stopped (by rw [hr]; exact h1) ?_ (by rw [hl]; simp [remove, h3])
        have h1' : (m.remove e).isReceiving = false := h1
        simp only [onRecvEntryUnlinked, h1', Bool.false_eq_true, false_and, if_false]
        exact h2
    · rw [hf, ne_eq, hnone] at h
      obtain ⟨h1, h2⟩ := hm.flush h
      refine ⟨by rw [hr]; exact h1, ?_⟩
      unfold onRecvEntryUnlinked
      split <;> simp [UdpSocket.cancel, remove, h2]
  · exact hm

theorem sound_step {m m' : Multiplexer ι} {ev : Event ι} (hm : Sound m) (hen : m.Enabled ev)
    (h : m.step ev = .ok m') : Sound m' := by
  cases ev with
  | register e => exact sound_register hm hen h
  | unlink e => cases h; exact sound_unlink hm
  | received ec ep data => exact sound_received hm hen.1 hen.2 h
  | next => exact sound_next hm h
  | flushed => exact sound_flushed hm hen.1 h

/-- No assertion of the loop fails. -/
theorem step_ok {m : Multiplexer ι} {ev : Event ι} (hm : Sound m) (hen : m.Enabled ev) :
    ∃ m', m.step ev = .ok m' := by
  cases ev with
  | register e => exact ⟨_, registerRecvHandler_eq hen⟩
  | unlink e => exact ⟨_, rfl⟩
  | received ec ep data =>
    cases hm.idle hen.2 with
    | stopped _ h2 => exact absurd h2 hen.1
    | receiving c h1 _ _ =>
      simp only [step]
      rw [onReceive_eq (by exact h1), receiveAgain_eq]
      split <;> exact ⟨_, rfl⟩
  | next =>
    simp only [step, flushNext]
    split
    · exact ⟨_, rfl⟩
    · exact ⟨_, rfl⟩
  | flushed => exact ⟨_, receiveAgain_eq _⟩

theorem reachable_sound {es : List (Event ι)} {m : Multiplexer ι} (h : Run Enabled step {} es m) : Sound m :=
  h.invariant Sound (fun _ _ _ hs hen hstep => sound_step hs hen hstep) sound_init

/-! ## Who is linked -/

theorem linked_register {m m' : Multiplexer ι} {e x : ι} (he : ¬ m.Linked e)
    (h : m.registerRecvHandler e = .ok m') : m'.Linked x ↔ x = e ∨ m.Linked x := by
  rw [registerRecvHandler_eq he] at h
  cases h
  have hp : ∀ (l : List ι) (b : Bool) (s : UdpSocket),
      ({ m with recvHandlers := l, isReceiving := b, udpSocket := s } : Multiplexer ι).pending = m.pending :=
    fun _ _ _ => rfl
  split <;> simp only [Linked, hp, List.mem_append, List.mem_singleton] <;> tauto

theorem flushing_register {m m' : Multiplexer ι} {e : ι} (he : ¬ m.Linked e)
    (h : m.registerRecvHandler e = .ok m') : m'.flushing = m.flushing := by
  rw [registerRecvHandler_eq he] at h
  cases h
  split <;> rfl

theorem flushing_unlink {m : Multiplexer ι} {e : ι} : (m.unlink e).flushing = none ↔ m.flushing = none := by
  unfold unlink
  split
  · rw [(onRecvEntryUnlinked_lists _).2.1]
    simp [remove]
  · rfl

theorem linked_unlink {m : Multiplexer ι} {e x : ι} (hm : Sound m) :
    (m.unlink e).Linked x ↔ x ≠ e ∧ m.Linked x := by
  obtain ⟨hl, hf, -, -⟩ := onRecvEntryUnlinked_lists (m.remove e)
  have hnodup := List.nodup_append.1 hm.nodup
  unfold unlink
  split
  · rw [Linked, hl, pending, hf, ← pending, pending_remove]
    simp only [remove, hnodup.1.mem_erase_iff, hnodup.2.1.mem_erase_iff, Linked]
    tauto
  · next hn =>
    constructor
    · exact fun hx => ⟨fun hxe => hn (hxe ▸ hx), hx⟩
    · exact fun hx => hx.2

/-! ## Cancelled since the last entry left -/

/-- In the run `es` to `m` the last entry left at an `unlink` that cancelled
the outstanding receive, and nothing but other unlinks has happened since. -/
def CancelledSince (es : List (Event ι)) (m : Multiplexer ι) : Prop :=
  ∃ es₁ e es₂ m₁, es = es₁ ++ .unlink e :: es₂ ∧ Run Enabled step {} es₁ m₁ ∧
    m₁.recvHandlers = [e] ∧ m₁.udpSocket.receives ≠ [] ∧ (m₁.unlink e).udpSocket = m₁.udpSocket.cancel ∧
    Run Enabled step (m₁.unlink e) es₂ m ∧ ∀ ev ∈ es₂, ∃ x, ev = .unlink x

theorem unlink_last {m : Multiplexer ι} {e : ι} (hm : Sound m) (hf : m.flushing = none)
    (hne : m.recvHandlers ≠ []) (hnil : (m.unlink e).recvHandlers = []) :
    m.recvHandlers = [e] ∧ m.udpSocket.receives ≠ [] ∧ (m.unlink e).udpSocket = m.udpSocket.cancel := by
  cases hm.idle hf with
  | stopped _ _ h3 => exact absurd h3 hne
  | receiving c h1 h2 _ =>
    unfold unlink at hnil ⊢
    split at hnil
    · next hl =>
      rw [(onRecvEntryUnlinked_lists _).1] at hnil
      have he : m.recvHandlers.erase e = [] := hnil
      have hmem : e ∈ m.recvHandlers := by simpa [Linked, hf] using hl
      have hone : m.recvHandlers = [e] := by
        have hlen := List.length_erase_of_mem hmem
        rw [he] at hlen
        obtain ⟨a, ha⟩ := List.length_eq_one_iff.1 (show m.recvHandlers.length = 1 by
          have := List.length_pos_of_mem hmem
          simp at hlen
          omega)
        rw [ha] at hmem ⊢
        rw [List.mem_singleton.1 hmem]
      refine ⟨hone, by simp [h2], ?_⟩
      have h1' : (m.remove e).isReceiving = true := h1
      have hopen : (m.remove e).udpSocket.isOpen = true := hm.isOpen
      simp only [hl, if_true, onRecvEntryUnlinked, h1', hnil, hopen, and_self]
      rfl
    · exact absurd hnil hne

theorem cancelledSince {es : List (Event ι)} {m : Multiplexer ι} (h : Run Enabled step {} es m)
    (hf : m.flushing = none) (hnil : m.recvHandlers = []) (hrec : m.udpSocket.receives ≠ []) :
    CancelledSince es m := by
  -- On the last event: it is the unlink the receive was cancelled at, or one after it.
  revert hf hnil hrec
  refine h.induction_snoc (fun es m => m.flushing = none → m.recvHandlers = [] →
    m.udpSocket.receives ≠ [] → CancelledSince es m) (fun _ _ hrec => absurd rfl hrec) ?_
  intro es m ev m' hr ih hen hstep hf hnil hrec
  have hm := reachable_sound hr
  cases ev with
  | register e =>
    have hreg := registerRecvHandler_eq hen
    rw [show m.registerRecvHandler e = .ok m' from hstep] at hreg
    cases hreg
    split at hnil <;> simp at hnil
  | unlink e =>
    cases hstep
    have hf' : m.flushing = none := by
      unfold unlink at hf
      split at hf
      · rw [(onRecvEntryUnlinked_lists _).2.1] at hf
        simpa [remove] using hf
      · exact hf
    by_cases hm0 : m.recvHandlers = []
    · have hsame : m.unlink e = m := by simp [unlink, Linked, hm0, hf']
      rw [hsame] at hrec
      obtain ⟨es₁, x, es₂, m₁, rfl, h1, h2, h3, h4, h5, h6⟩ := ih hf' hm0 hrec
      refine ⟨es₁, x, es₂ ++ [.unlink e], m₁, by simp, h1, h2, h3, h4, h5.append (.cons hen rfl .nil), ?_⟩
      intro ev hev
      simp only [List.mem_append, List.mem_singleton] at hev
      rcases hev with hev | rfl
      · exact h6 ev hev
      · exact ⟨e, rfl⟩
    · obtain ⟨h1, h2, h3⟩ := unlink_last hm hf' hm0 hnil
      exact ⟨es, e, [], m, rfl, hr, h1, h2, h3, .nil, by simp⟩
  | received ec ep data =>
    cases hm.idle hen.2 with
    | stopped _ h2 => exact absurd h2 hen.1
    | receiving c h1 h2 _ =>
      have hstep : (m.receiveCompleted ep data).onReceive ec data.length = .ok m' := hstep
      rw [onReceive_eq (by exact h1)] at hstep
      have hdone : (m.receiveCompleted ep data).udpSocket.receives = [] := by
        simp [receiveCompleted, UdpSocket.receiveCompleted, h2]
      split at hstep
      · exact absurd (receiveAgain_receives hdone hstep hnil) hrec
      · cases hstep
        simp [flushHandlers] at hf
  | next =>
    have hstep : m.flushNext (fun _ => true) = .ok m' := hstep
    unfold flushNext at hstep
    split at hstep
    · simp only [Except.bind_ok_iff, Except.pure_ok_iff] at hstep
      obtain ⟨_, -, rfl⟩ := hstep
      simp at hf
    · cases hstep
      simp [Enabled, pending, hf] at hen
  | flushed =>
    exact absurd (receiveAgain_receives (m := { m with flushing := none }) (hm.flush hen.1).2 hstep hnil) hrec

/-- **The receive loop.** In every run of a multiplexer over an open socket, whatever the
entries' handlers register and unlink while a completion is flushed: at most one receive is
outstanding, none while a flush runs; no assertion fails; outside a flush a registered entry
has its receive outstanding, and a receive nobody waits for has been cancelled since the last
entry left. -/
theorem receive_loop {es : List (Event ι)} {m : Multiplexer ι} (h : Run Enabled step {} es m) :
    m.udpSocket.receives.length ≤ 1 ∧
    (m.flushing ≠ none → m.udpSocket.receives = []) ∧
    (∀ ev, m.Enabled ev → ∃ m', m.step ev = .ok m') ∧
    (m.flushing = none → m.recvHandlers ≠ [] → m.udpSocket.receives.length = 1) ∧
    (m.flushing = none → m.recvHandlers = [] → m.udpSocket.receives ≠ [] → CancelledSince es m) := by
  have hm := reachable_sound h
  refine ⟨?_, fun hf => (hm.flush hf).2, fun ev hen => step_ok hm hen, fun hf hne => ?_, cancelledSince h⟩
  · by_cases hf : m.flushing = none
    · cases hm.idle hf with
      | receiving c _ h2 => simp [h2]
      | stopped _ h2 => simp [h2]
    · simp [(hm.flush hf).2]
  · cases hm.idle hf with
    | receiving c _ h2 => simp [h2]
    | stopped _ _ h3 => exact absurd h3 hne

/-- A datagram is flushed to entry 0, which registers entry 1 from its handler; entry 1 is then
unlinked, and the receive started for it is cancelled. -/
theorem receive_loop_reregister :
    ∃ m : Multiplexer Nat,
      Run Enabled step {} [.register 0, .received .success default [7], .next, .register 1, .flushed, .unlink 1] m ∧
        m.udpSocket.receives = [true] ∧
        CancelledSince [.register 0, .received .success default [7], .next, .register 1, .flushed, .unlink 1] m := by
  have hrun : Run Enabled step ({} : Multiplexer Nat)
      [.register 0, .received .success default [7], .next, .register 1, .flushed, .unlink 1]
      { isReceiving := true, udpSocket := { receives := [true] }, rxBuffer := [7] } :=
    .cons (by decide) rfl <| .cons (by decide) rfl <| .cons (by decide) rfl <| .cons (by decide) rfl <|
      .cons (by decide) rfl <| .cons (by decide) rfl .nil
  exact ⟨_, hrun, rfl, (receive_loop hrun).2.2.2.2 rfl rfl (by decide)⟩

end AsioUtp.Multiplexer
