/-
Who points at whom, and that libutp's sockets are used only while they live.

`Formed` is about the library's own pointers: a `socket` with a
`_socket_impl` holds the multiplexer, and every `socket_impl` reached from a
`socket`, a `utp_socket` or the accept queue is registered. `Handles` is
about the pointers to and from libutp. Both are kept by every move, whatever
the user and libutp do; `handles_live` is what follows for a reachable world.
-/
import AsioUtp.Moves

namespace AsioUtp

namespace World

open Machine

/-! ## The library's pointers -/

structure Formed (w : World) : Prop where
  sockets : ∀ v i, (w.sockets v).impl = some i →
    i ∈ w.registeredSockets ∧ v < w.made ∧ (w.sockets v).multiplexer = true ∧ w.ctx.alive = true
  userdata : ∀ u i, (w.utp u).userdata = some i → i ∈ w.registeredSockets
  accepting : ∀ i ∈ w.acceptingSockets, i ∈ w.registeredSockets
  range : w.registeredSockets = List.range w.registeredSockets.length
  utpCtx : w.ctx.alive = true → w.ctx.utpCtx = true

theorem formed_init : Formed {} where
  sockets := by simp
  userdata := by simp
  accepting := by simp
  range := by simp
  utpCtx _ := rfl

theorem Formed.unregistered {w : World} (h : Formed w) : w.registeredSockets.length ∉ w.registeredSockets := by
  rw [h.range]
  simp

theorem Formed.nodup {w : World} (h : Formed w) : w.registeredSockets.Nodup := by
  rw [h.range]
  exact List.nodup_range

/-- A change that registers nothing and points nobody at anything new. -/
theorem Formed.change {w w' : World} (h : Formed w) (hreg : w'.registeredSockets = w.registeredSockets)
    (hsock : ∀ v i, (w'.sockets v).impl = some i → (w.sockets v).impl = some i ∧
      (w'.sockets v).multiplexer = (w.sockets v).multiplexer)
    (hmade : w.made ≤ w'.made) (hutp : ∀ u i, (w'.utp u).userdata = some i → i ∈ w.registeredSockets)
    (hacc : ∀ i ∈ w'.acceptingSockets, i ∈ w.registeredSockets) (ha : w'.ctx.alive = w.ctx.alive)
    (hc : w'.ctx.utpCtx = w.ctx.utpCtx) : Formed w' where
  sockets v i hv := by
    obtain ⟨hi, hm⟩ := hsock v i hv
    obtain ⟨h1, h2, h3, h4⟩ := h.sockets v i hi
    rw [hreg, hm, ha]
    exact ⟨h1, by omega, h3, h4⟩
  userdata u i hu := by
    rw [hreg]
    exact hutp u i hu
  accepting i hi := by
    rw [hreg]
    exact hacc i hi
  range := by rw [hreg]; exact h.range
  utpCtx := by rw [ha, hc]; exact h.utpCtx

/-- The same, where neither sockets, nor libutp's, nor the accept queue changes. -/
theorem Formed.same {w w' : World} (h : Formed w) (hreg : w'.registeredSockets = w.registeredSockets)
    (hsock : w'.sockets = w.sockets) (hmade : w'.made = w.made) (hutp : w'.utp = w.utp)
    (hacc : w'.acceptingSockets = w.acceptingSockets) (ha : w'.ctx.alive = w.ctx.alive)
    (hc : w'.ctx.utpCtx = w.ctx.utpCtx) : Formed w' :=
  h.change hreg (fun v i hv => ⟨by rwa [hsock] at hv, by rw [hsock]⟩) (by omega)
    (fun u i hu => h.userdata u i (by rwa [hutp] at hu)) (fun i hi => h.accepting i (by rwa [hacc] at hi)) ha hc

theorem formed_bind {w : World} {v : Nat} (h : Formed w) (hv : v < w.made) (ha : w.ctx.alive = true) :
    Formed (w.bind v) := by
  unfold World.bind
  split
  · exact h
  · next hnone =>
    have hmem : ∀ i, i ∈ w.registeredSockets → i ∈ w.registeredSockets ++ [w.registeredSockets.length] :=
      fun i hi => List.mem_append_left _ hi
    refine ⟨fun v' i hi => ?_, fun u i hu => hmem i (h.userdata u i hu), fun i hi => hmem i (h.accepting i hi), ?_,
      h.utpCtx⟩
    · by_cases hvv : v' = v
      · subst hvv
        simp only [setImpl, setSocket, Function.update_self, Option.some.injEq] at hi ⊢
        exact ⟨by simp [← hi], hv, trivial, ha⟩
      · simp only [setImpl, setSocket, Function.update_of_ne hvv] at hi ⊢
        obtain ⟨h1, h2⟩ := h.sockets v' i hi
        exact ⟨hmem i h1, h2⟩
    · show w.registeredSockets ++ [w.registeredSockets.length] = List.range (w.registeredSockets ++ [_]).length
      rw [List.length_append, List.length_singleton, List.range_succ, ← h.range]

theorem formed_moveConstruct {w : World} {v : Nat} (h : Formed w) (hv : v < w.made) : Formed (w.moveConstruct v) := by
  have hsock : (w.moveConstruct v).sockets =
      Function.update (Function.update w.sockets v {}) w.made (w.sockets v) := by
    unfold moveConstruct
    dsimp only
    split <;> rfl
  obtain ⟨hreg, hmade, hutp, hacc, hctx⟩ : (w.moveConstruct v).registeredSockets = w.registeredSockets ∧
      (w.moveConstruct v).made = w.made + 1 ∧ (w.moveConstruct v).utp = w.utp ∧
      (w.moveConstruct v).acceptingSockets = w.acceptingSockets ∧ (w.moveConstruct v).ctx = w.ctx := by
    unfold moveConstruct
    dsimp only
    split <;> exact ⟨rfl, rfl, rfl, rfl, rfl⟩
  refine ⟨fun v' i hi => ?_, fun u i hu => ?_, fun i hi => ?_, by rw [hreg]; exact h.range,
    by rw [hctx]; exact h.utpCtx⟩
  · rw [hsock] at hi ⊢
    rw [hreg, hmade, hctx]
    by_cases hnew : v' = w.made
    · subst hnew
      rw [Function.update_self] at hi ⊢
      obtain ⟨h1, -, h3⟩ := h.sockets v i hi
      exact ⟨h1, by omega, h3⟩
    · rw [Function.update_of_ne hnew] at hi ⊢
      by_cases hold : v' = v
      · subst hold
        simp at hi
      · rw [Function.update_of_ne hold] at hi ⊢
        obtain ⟨h1, h2, h3⟩ := h.sockets v' i hi
        exact ⟨h1, by omega, h3⟩
  · rw [hreg]
    exact h.userdata u i (by rwa [hutp] at hu)
  · rw [hreg]
    exact h.accepting i (by rwa [hacc] at hi)

/-- Letting go of a `_socket_impl` points nobody at anything new. -/
theorem formed_dropImpl {w : World} (h : Formed w) {w' : World} {v : Nat} {s : Socket} (hs : s.impl = none)
    (hsock : w'.sockets = Function.update w.sockets v s) (hreg : w'.registeredSockets = w.registeredSockets)
    (hmade : w'.made = w.made) (hutp : w'.utp = w.utp) (hacc : w'.acceptingSockets = w.acceptingSockets)
    (ha : w'.ctx.alive = w.ctx.alive) (hc : w'.ctx.utpCtx = w.ctx.utpCtx) : Formed w' := by
  refine h.change hreg (fun v' i hv => ?_) (by omega) (fun u i hu => h.userdata u i (by rwa [hutp] at hu))
    (fun i hi => h.accepting i (by rwa [hacc] at hi)) ha hc
  rw [hsock] at hv ⊢
  by_cases hvv : v' = v
  · subst hvv
    rw [Function.update_self, hs] at hv
    cases hv
  · rw [Function.update_of_ne hvv] at hv ⊢
    exact ⟨hv, rfl⟩

theorem formed_loop {w : World} {ev : Context.Event} {c : Context} (h : Formed w) (hen : w.ctx.Enabled ev)
    (hen' : w.ContextEnabled ev) (hc : w.ctx.step ev = .ok c) : Formed { w with ctx := c } := by
  by_cases hd : ev = .destroy
  · subst hd
    cases hc
    -- A socket with an impl would hold the multiplexer.
    refine ⟨fun v i hi => ?_, h.userdata, h.accepting, h.range, fun ha => by simp at ha⟩
    obtain ⟨-, hv, hm, -⟩ := h.sockets v i hi
    rw [hen' v hv] at hm
    cases hm
  · by_cases hd' : ev = .destroyed
    · subst hd'
      cases hc
      refine ⟨fun v i hi => ?_, h.userdata, h.accepting, h.range, fun ha => ?_⟩
      · obtain ⟨-, -, -, ha⟩ := h.sockets v i hi
        rw [hen.1] at ha
        cases ha
      · have ha : w.ctx.alive = true := ha
        rw [hen.1] at ha
        cases ha
    · have hinc : ev ≠ .increment := fun he => by subst he; exact hen'
      have hdec : ev ≠ .decrement := fun he => by subst he; exact hen'
      obtain ⟨h1, h2, -⟩ := Context.step_loop hc hinc hdec hd hd'
      exact h.same rfl rfl rfl rfl rfl h1 h2

theorem formed_move {w w' : World} {l : Label} (h : Formed w) (hm : Move w l w') : Formed w' := by
  cases hm with
  | setup hi _ _ _ _ hc =>
    obtain ⟨h1, h2, -⟩ := Context.increment_alive hc
    exact h.same rfl rfl rfl rfl rfl h1 h2
  | @connect i _ ep onClose c hi _ hc =>
    obtain ⟨h1, h2, -⟩ := Context.increment_alive hc
    refine h.change rfl (fun v i hv => ⟨hv, rfl⟩) le_rfl (fun u j hu => ?_) h.accepting h1 h2
    by_cases huc : u = w.created
    · subst huc
      simp only [setImpl, setUtp, Function.update_self, Option.some.injEq] at hu
      rw [← hu]
      exact hi
    · simp only [setImpl, setUtp, Function.update_of_ne huc] at hu
      exact h.userdata u j hu
  | waiting hi _ _ hc =>
    obtain ⟨h1, h2, -⟩ := Context.increment_alive hc
    refine h.change rfl (fun v i hv => ⟨hv, rfl⟩) le_rfl h.userdata (fun j hj => ?_) h1 h2
    rcases List.mem_append.1 hj with hj | hj
    · exact h.accepting j hj
    · rw [List.mem_singleton.1 hj]
      exact hi
  | take | post | direct | data | received | eof | number | run =>
    exact h.same rfl rfl rfl rfl rfl rfl rfl
  | socket => exact h.change rfl (fun v i hv => ⟨hv, rfl⟩) (Nat.le_succ _) h.userdata h.accepting rfl rfl
  | @shut i ec _ _ _ =>
    obtain ⟨utp, heq, hutp⟩ := shutUtp_eq w i ec
    rw [heq]
    refine h.change rfl (fun v i hv => ⟨hv, rfl⟩) le_rfl (fun u j hu => h.userdata u j ?_) h.accepting rfl rfl
    have hu : (utp u).userdata = some j := hu
    rcases hutp u with he | ⟨-, he⟩ <;> rw [he] at hu <;> exact hu
  | finish hclosed hf =>
    rename_i i
    obtain ⟨-, c, hc, rfl⟩ := finishClose_ok_iff.1 hf
    obtain ⟨h1, h2, -⟩ := Context.increment_alive hc
    cases ho : (w.impls i).owner with
    | none => exact h.same rfl (by simp) rfl rfl rfl h1 h2
    | some v =>
      exact formed_dropImpl h (s := { w.sockets v with impl := none }) rfl (by simp; rfl) rfl rfl rfl rfl h1 h2
  | wrote | die =>
    rename_i u _
    refine h.change rfl (fun v i hv => ⟨hv, rfl⟩) le_rfl (fun u' j hu => h.userdata u' j ?_) h.accepting rfl rfl
    by_cases huu : u' = u
    · subst huu
      simpa using hu
    · simpa [huu] using hu
  | create =>
    refine h.change rfl (fun v i hv => ⟨hv, rfl⟩) le_rfl (fun u j hu => ?_) h.accepting rfl rfl
    by_cases huc : u = w.created
    · subst huc
      simp at hu
    · simp only [setUtp, Function.update_of_ne huc] at hu
      exact h.userdata u j hu
  | @accept i u rest _ hacc _ _ _ _ _ _ _ =>
    have hmem := h.accepting
    rw [hacc] at hmem
    refine h.change rfl (fun v i hv => ⟨hv, rfl⟩) le_rfl (fun u' j hu => ?_)
      (fun j hj => hmem j (List.mem_cons_of_mem _ hj)) rfl rfl
    by_cases huu : u' = u
    · subst huu
      simp only [post, setImpl, setUtp, Function.update_self, Option.some.injEq] at hu
      rw [← hu]
      exact hmem i (by simp)
    · simp only [post, setImpl, setUtp, Function.update_of_ne huu] at hu
      exact h.userdata u' j hu
  | @destroy i u _ _ _ _ =>
    refine h.change rfl (fun v i hv => ⟨hv, rfl⟩) le_rfl (fun u' j hu => h.userdata u' j ?_) h.accepting rfl rfl
    by_cases huu : u' = u
    · subst huu
      simpa [setImpl] using hu
    · simpa [setImpl, huu] using hu
  | decrement =>
    obtain ⟨h1, h2⟩ := Context.decrement_alive w.ctx
    exact h.same rfl rfl rfl rfl rfl h1 h2
  | bind hv ha => exact formed_bind h hv ha
  | moveConstruct hv => exact formed_moveConstruct h hv
  | release => exact formed_dropImpl h (s := {}) rfl rfl rfl rfl rfl rfl rfl rfl
  | @assign v v' _ hs =>
    have hdrop : Formed (w.setSocket v' {}) := formed_dropImpl h (s := {}) rfl rfl rfl rfl rfl rfl rfl rfl
    exact formed_dropImpl hdrop hs rfl rfl rfl rfl rfl rfl rfl
  | ran =>
    unfold World.ran
    split
    · exact h
    · dsimp only
      split
      · obtain ⟨h1, h2⟩ := Context.decrement_alive w.ctx
        exact h.same rfl rfl rfl rfl rfl h1 h2
      · exact h.same rfl rfl rfl rfl rfl rfl rfl
  | loop hen hen' hc => exact formed_loop h hen hen' hc

/-! ## libutp's sockets -/

structure Handles (w : World) : Prop where
  attached : ∀ i u, (w.impls i).utpSocket = some u →
    u < w.created ∧ (w.utp u).alive = true ∧ (w.utp u).userdata = some i
  back : ∀ u i, (w.utp u).alive = true → (w.utp u).userdata = some i → (w.impls i).utpSocket = some u
  closes : ∀ u, (w.utp u).closes ≤ 1
  unclosed : ∀ i u, (w.impls i).utpSocket = some u → (w.impls i).closed = false → (w.utp u).closes = 0

theorem handles_init : Handles {} where
  attached := by simp
  back := by simp
  closes := by simp
  unclosed := by simp

/-- A change that attaches and detaches nothing. -/
theorem Handles.same {w w' : World} (h : Handles w) (hutp : w'.utp = w.utp) (hcreated : w'.created = w.created)
    (himpl : ∀ j, (w'.impls j).utpSocket = (w.impls j).utpSocket ∧
      ((w.impls j).utpSocket ≠ none → (w'.impls j).closed = false → (w.impls j).closed = false)) : Handles w' where
  attached i u hu := by
    rw [(himpl i).1] at hu
    rw [hutp, hcreated]
    exact h.attached i u hu
  back u i ha hd := by
    rw [(himpl i).1]
    rw [hutp] at ha hd
    exact h.back u i ha hd
  closes u := by rw [hutp]; exact h.closes u
  unclosed i u hu hc := by
    rw [(himpl i).1] at hu
    rw [hutp]
    exact h.unclosed i u hu ((himpl i).2 (by simp [hu]) hc)

/-- The same, where one impl changes. -/
theorem Handles.setImpl {w w' : World} (h : Handles w) {i : Nat} {s : SocketImpl} (hutp : w'.utp = w.utp)
    (hcreated : w'.created = w.created) (himpl : w'.impls = Function.update w.impls i s)
    (hu : s.utpSocket = (w.impls i).utpSocket) (hc : s.closed = false → (w.impls i).closed = false) :
    Handles w' := by
  refine h.same hutp hcreated fun j => ?_
  rw [himpl]
  by_cases hj : j = i
  · subst hj
    rw [Function.update_self]
    exact ⟨hu, fun _ => hc⟩
  · rw [Function.update_of_ne hj]
    exact ⟨rfl, fun _ => id⟩

/-- A fresh `utp_socket` is attached to an impl that has none. -/
theorem Handles.attach {w w' : World} (h : Handles w) {i u : Nat} {s : SocketImpl} {x : UtpSocket}
    (hutp : w'.utp = Function.update w.utp u x) (himpl : w'.impls = Function.update w.impls i s)
    (hcreated : w.created ≤ w'.created) (hlt : u < w'.created) (hnone : (w.impls i).utpSocket = none)
    (hfree : ∀ j, (w.impls j).utpSocket ≠ some u) (hs : s.utpSocket = some u) (halive : x.alive = true)
    (hdata : x.userdata = some i) (hcloses : x.closes = 0) : Handles w' := by
  have hother : ∀ j, j ≠ i → w'.impls j = w.impls j := fun j hj => by rw [himpl, Function.update_of_ne hj]
  have hself : w'.impls i = s := by rw [himpl, Function.update_self]
  have hutp' : ∀ v, v ≠ u → w'.utp v = w.utp v := fun v hv => by rw [hutp, Function.update_of_ne hv]
  have hx : w'.utp u = x := by rw [hutp, Function.update_self]
  refine ⟨fun j v hv => ?_, fun v j ha hd => ?_, fun v => ?_, fun j v hv hc => ?_⟩
  · by_cases hj : j = i
    · subst hj
      rw [hself, hs] at hv
      cases hv
      rw [hx]
      exact ⟨hlt, halive, hdata⟩
    · rw [hother j hj] at hv
      obtain ⟨h1, h2⟩ := h.attached j v hv
      rw [hutp' v fun hvu => hfree j (hvu ▸ hv)]
      exact ⟨by omega, h2⟩
  · by_cases hv : v = u
    · subst hv
      rw [hx, hdata] at hd
      cases hd
      rw [hself, hs]
    · rw [hutp' v hv] at ha hd
      have hj := h.back v j ha hd
      rw [hother j fun hji => by rw [hji, hnone] at hj; cases hj]
      exact hj
  · by_cases hv : v = u
    · subst hv
      rw [hx, hcloses]
      omega
    · rw [hutp' v hv]
      exact h.closes v
  · by_cases hj : j = i
    · subst hj
      rw [hself, hs] at hv
      cases hv
      rw [hx, hcloses]
    · rw [hother j hj] at hv hc
      rw [hutp' v fun hvu => hfree j (hvu ▸ hv)]
      exact h.unclosed j v hv hc

/-- Shutting a socket calls `utp_close` on what is attached to it: for the first time, since it
was open. -/
theorem handles_shut {w : World} {i : Nat} {ec : ErrorCode} (h : Handles w) (hopen : (w.impls i).closed = false) :
    Handles (w.shutUtp i ec) := by
  obtain ⟨utp, heq, hutp⟩ := shutUtp_eq w i ec
  have hsame : ∀ u, (utp u).alive = (w.utp u).alive ∧ (utp u).userdata = (w.utp u).userdata := fun u => by
    rcases hutp u with he | ⟨-, he⟩ <;> rw [he] <;> exact ⟨rfl, rfl⟩
  have hother : ∀ j, j ≠ i → (w.shutUtp i ec).impls j = w.impls j := fun j hj => by
    rw [heq]
    exact Function.update_of_ne hj ..
  have hself : ((w.shutUtp i ec).impls i).utpSocket = (w.impls i).utpSocket ∧
      ((w.shutUtp i ec).impls i).closed = true := by
    rw [heq]
    simp
  have hatt : ∀ j, ((w.shutUtp i ec).impls j).utpSocket = (w.impls j).utpSocket := fun j => by
    by_cases hj : j = i
    · rw [hj]
      exact hself.1
    · rw [hother j hj]
  have hutp' : (w.shutUtp i ec).utp = utp := by rw [heq]
  have hcreated : (w.shutUtp i ec).created = w.created := by rw [heq]
  refine ⟨fun j u hu => ?_, fun u j ha hd => ?_, fun u => ?_, fun j u hu hc => ?_⟩
  · rw [hatt] at hu
    rw [hutp', (hsame u).1, (hsame u).2, hcreated]
    exact h.attached j u hu
  · rw [hutp', (hsame u).1] at ha
    rw [hutp', (hsame u).2] at hd
    rw [hatt]
    exact h.back u j ha hd
  · rw [hutp']
    rcases hutp u with he | ⟨hu, he⟩
    · rw [he]
      exact h.closes u
    · rw [he]
      simp [h.unclosed i u hu hopen]
  · by_cases hj : j = i
    · subst hj
      rw [hself.2] at hc
      cases hc
    · rw [hother j hj] at hu hc
      rw [hutp']
      rcases hutp u with he | ⟨hu', -⟩
      · rw [he]
        exact h.unclosed j u hu hc
      · -- What is attached to `i` is attached to nobody else.
        obtain ⟨-, -, h1⟩ := h.attached i u hu'
        obtain ⟨-, -, h2⟩ := h.attached j u hu
        rw [h1] at h2
        cases h2
        exact absurd rfl hj

theorem handles_destroy {w : World} {i u : Nat} {p : List Completion} (h : Handles w) (halive : (w.utp u).alive = true)
    (hd : (w.utp u).userdata = some i) :
    Handles { (w.setUtp u { w.utp u with alive := false }).setImpl i
        { w.impls i with utpSocket := none, closed := true, handlers := fun _ => none } with posted := p } := by
  have hu : (w.impls i).utpSocket = some u := h.back u i halive hd
  have hne : ∀ j v, j ≠ i → (w.impls j).utpSocket = some v → v ≠ u := fun j v hj hv hvu => by
    subst hvu
    obtain ⟨-, -, h1⟩ := h.attached j v hv
    rw [hd] at h1
    cases h1
    exact hj rfl
  have himpl : ∀ j, j ≠ i → ∀ s, Function.update w.impls i s j = w.impls j :=
    fun j hj s => Function.update_of_ne hj ..
  have hutp : ∀ v, v ≠ u → ∀ x, Function.update w.utp u x v = w.utp v := fun v hv x => Function.update_of_ne hv ..
  refine ⟨fun j v hv => ?_, fun v j ha hd' => ?_, fun v => ?_, fun j v hv hc => ?_⟩ <;>
    simp only [World.setImpl, setUtp] at *
  · by_cases hj : j = i
    · subst hj
      simp at hv
    · rw [himpl j hj] at hv
      rw [hutp v (hne j v hj hv)]
      exact h.attached j v hv
  · by_cases hvu : v = u
    · subst hvu
      simp at ha
    · rw [hutp v hvu] at ha hd'
      have hj := h.back v j ha hd'
      by_cases hji : j = i
      · subst hji
        rw [hu] at hj
        cases hj
        exact absurd rfl hvu
      · rw [himpl j hji]
        exact hj
  · by_cases hvu : v = u
    · subst hvu
      simpa using h.closes v
    · rw [hutp v hvu]
      exact h.closes v
  · by_cases hj : j = i
    · subst hj
      simp at hv
    · rw [himpl j hj] at hv hc
      rw [hutp v (hne j v hj hv)]
      exact h.unclosed j v hv hc

/-- A change to a `utp_socket` that leaves its pointer and its count of closes, and its life if
anyone is attached. -/
theorem Handles.setUtp {w w' : World} (h : Handles w) {u : Nat} {x : UtpSocket}
    (hutp : w'.utp = Function.update w.utp u x) (himpl : w'.impls = w.impls) (hcreated : w.created ≤ w'.created)
    (halive : ∀ i, (w.impls i).utpSocket = some u → x.alive = true ∧ x.userdata = some i ∧ x.closes = (w.utp u).closes)
    (hback : ∀ i, x.alive = true → x.userdata = some i → (w.impls i).utpSocket = some u) (hcloses : x.closes ≤ 1) :
    Handles w' := by
  have hutp' : ∀ v, v ≠ u → w'.utp v = w.utp v := fun v hv => by rw [hutp, Function.update_of_ne hv]
  have hx : w'.utp u = x := by rw [hutp, Function.update_self]
  refine ⟨fun j v hv => ?_, fun v j ha hd => ?_, fun v => ?_, fun j v hv hc => ?_⟩
  · rw [himpl] at hv
    obtain ⟨h1, h2⟩ := h.attached j v hv
    by_cases hvu : v = u
    · subst hvu
      obtain ⟨h3, h4, -⟩ := halive j hv
      rw [hx]
      exact ⟨by omega, h3, h4⟩
    · rw [hutp' v hvu]
      exact ⟨by omega, h2⟩
  · rw [himpl]
    by_cases hvu : v = u
    · subst hvu
      rw [hx] at ha hd
      exact hback j ha hd
    · rw [hutp' v hvu] at ha hd
      exact h.back v j ha hd
  · by_cases hvu : v = u
    · subst hvu
      rw [hx]
      exact hcloses
    · rw [hutp' v hvu]
      exact h.closes v
  · rw [himpl] at hv hc
    by_cases hvu : v = u
    · subst hvu
      rw [hx, (halive j hv).2.2]
      exact h.unclosed j v hv hc
    · rw [hutp' v hvu]
      exact h.unclosed j v hv hc

theorem handles_bind {w : World} {v : Nat} (hf : Formed w) (h : Handles w) : Handles (w.bind v) := by
  unfold World.bind
  split
  · exact h
  · have hnone : (w.impls w.registeredSockets.length).utpSocket = none := by
      cases hu : (w.impls w.registeredSockets.length).utpSocket with
      | none => rfl
      | some u =>
        obtain ⟨-, -, hd⟩ := h.attached _ u hu
        exact absurd (hf.userdata u _ hd) hf.unregistered
    refine h.same rfl rfl fun j => ?_
    by_cases hj : j = w.registeredSockets.length
    · subst hj
      exact ⟨by simp [setSocket, hnone], fun hu => absurd hnone hu⟩
    · simp [setSocket, hj]

theorem handles_move {w w' : World} {l : Label} (hf : Formed w) (h : Handles w) (hm : Move w l w') : Handles w' := by
  have hfresh : ∀ j, (w.impls j).utpSocket ≠ some w.created := fun j hj => by
    have := (h.attached j _ hj).1
    omega
  cases hm with
  | setup | waiting | take | post | decrement | eof => exact h.setImpl rfl rfl rfl rfl id
  | connect _ hnone _ =>
    exact h.attach rfl rfl (Nat.le_succ _) (Nat.lt_succ_self _) hnone hfresh rfl rfl rfl rfl
  | data hs | received hs => exact h.setImpl rfl rfl rfl hs.utpSocket (by rw [hs.closed]; exact id)
  | shut _ hopen _ => exact handles_shut h hopen
  | finish hclosed hfin =>
    obtain ⟨-, c, -, rfl⟩ := finishClose_ok_iff.1 hfin
    exact h.setImpl rfl rfl rfl rfl id
  | @wrote u bytes =>
    refine h.setUtp (u := u) rfl rfl le_rfl (fun i hi => ?_) (fun i ha hd => h.back u i ha hd) (h.closes u)
    obtain ⟨-, h1, h2⟩ := h.attached i u hi
    exact ⟨h1, h2, rfl⟩
  | create =>
    refine h.setUtp (u := w.created) rfl rfl (Nat.le_succ _) (fun i hi => absurd hi (hfresh i)) (fun i _ hd => ?_) ?_
    · simp at hd
    · simp
  | accept _ hnone _ halive hlt _ hfree hcloses =>
    exact h.attach rfl rfl le_rfl hlt hnone hfree rfl halive rfl hcloses
  | destroy halive hd _ _ => exact handles_destroy h halive hd
  | @die u hd =>
    refine h.setUtp (u := u) rfl rfl le_rfl (fun i hi => ?_) (fun i ha => ?_) (h.closes u)
    · obtain ⟨-, -, h1⟩ := h.attached i u hi
      rw [hd] at h1
      cases h1
    · simp at ha
  | direct | number | socket | run | loop | release | assign => exact h.same rfl rfl fun j => ⟨rfl, fun _ => id⟩
  | bind _ _ => exact handles_bind hf h
  | @moveConstruct v _ =>
    unfold World.moveConstruct
    dsimp only
    split
    · exact h.setImpl rfl rfl rfl rfl id
    · exact h.same rfl rfl fun j => ⟨rfl, fun _ => id⟩
  | ran =>
    unfold World.ran
    split
    · exact h
    · dsimp only
      split <;> exact h.same rfl rfl fun j => ⟨rfl, fun _ => id⟩

/-! ## Every run -/

/-- What every move keeps. -/
structure Sound (w : World) : Prop where
  formed : Formed w
  handles : Handles w

theorem sound_move {ok : World → Label → Prop} {w w' : World} (h : Sound w) (hm : Moves ok w w') : Sound w' := by
  obtain ⟨l, -, hm⟩ := hm
  exact ⟨formed_move h.formed hm, handles_move h.formed h.handles hm⟩

/-- The events of a sound world are admitted moves; only a write has moves that write, and only a call on a
`socket` object moves those. -/
theorem Sound.traces_apart {ok : World → Label → Prop} {w : World} {ev : Event} (h : Sound w)
    (hp : ∀ w l, l.Quiet → ok w l) (hobjects : ev.OnObjects → ∀ w' l, l.Object → ok w' l)
    (hwrites : ∀ i, w.WritesOn i ev → ∀ w' l, l.WritesTo i (w.impls i).utpSocket → ok w' l) (hen : w.Enabled ev)
    (had : Admits ok w ev) : Traces (Moves ok) (RaisesIn ev) id w (w.step ev) := by
  refine step_traces hp hobjects hwrites (fun v i hi => ?_) h.formed.userdata (fun j hj => ?_) hen had
  · obtain ⟨h1, -, -, h2⟩ := h.formed.sockets v i hi
    exact ⟨h1, h.formed.utpCtx h2⟩
  · have := (h.handles.attached j _ hj).1
    omega

theorem Sound.traces {ok : World → Label → Prop} {w : World} {ev : Event} (h : Sound w)
    (hp : ∀ w l, l.Plain → ok w l) (hen : w.Enabled ev) (had : Admits ok w ev) :
    Traces (Moves ok) (RaisesIn ev) id w (w.step ev) :=
  h.traces_apart (fun w l hl => hp w l hl.plain) (fun _ w' l hl => hp w' l hl.plain)
    (fun _ _ w' l hl => hp w' l hl.plain) hen had

/-- The same where closing is admitted anyway. -/
theorem Sound.starts {ok : World → Label → Prop} {w : World} {ev : Event} (h : Sound w)
    (hp : ∀ w l, l.Plain → ok w l) (hclosing : ∀ w l, l.Closing → ok w l) (hen : w.Enabled ev)
    (hst : Starts ok w ev) : Traces (Moves ok) (RaisesIn ev) id w (w.step ev) :=
  h.traces hp hen (hst.admits hclosing fun v i hi => (h.formed.sockets v i hi).1)

theorem Sound.step_traces {w : World} {ev : Event} (h : Sound w) (hen : w.Enabled ev) :
    Traces (Moves fun _ _ => True) (RaisesIn ev) id w (w.step ev) :=
  h.starts (fun _ _ _ => trivial) (fun _ _ _ => trivial) hen (by
    cases ev with
    | stateChange u state rs => intro i _; cases state <;> simp
    | _ => simp [Starts])

theorem sound_step {w w' : World} {ev : Event} (h : Sound w) (hen : w.Enabled ev) (hs : w.step ev = .ok w') :
    Sound w' := by
  have htr := h.step_traces hen
  rw [hs] at htr
  exact htr.keeps Sound (fun _ _ h hm => sound_move h hm) h

theorem sound_init : Sound {} := ⟨formed_init, handles_init⟩

theorem reachable_sound {w : World} (h : Reachable Enabled step {} w) : Sound w :=
  h.invariant Sound (fun _ _ _ hs hen hstep => sound_step hs hen hstep) sound_init

/-- libutp is called on what is attached, which is alive. -/
theorem step_ne_dead {w : World} {ev : Event} (hw : Sound w) (hen : w.Enabled ev) :
    w.step ev ≠ .error .deadSocket ∧ w.step ev ≠ .error .nullSocket ∧ w.step ev ≠ .error .nullContext := by
  have hraised : ∀ f, w.step ev = .error f → ∃ w', Sound w' ∧ RaisesIn ev w' f := fun f hs => by
    have htr := hw.step_traces hen
    rw [hs] at htr
    exact htr.faults Sound (fun _ _ h hm => sound_move h hm) hw
  refine ⟨fun hs => ?_, fun hs => ?_, fun hs => ?_⟩
  · obtain ⟨w', hw', i, u, hu, hdead⟩ := hraised _ hs
    rw [(hw'.handles.attached i u hu).2.1] at hdead
    cases hdead
  · obtain ⟨w', hw', i, u, halive, hdata, hnone⟩ := hraised _ hs
    rw [hw'.handles.back u i halive hdata] at hnone
    cases hnone
  · obtain ⟨w', -, hfalse⟩ := hraised _ hs
    exact hfalse

/-- **libutp's sockets are used only while alive and closed at most once.** In every reachable
world: what is attached to a `socket_impl` is alive and points back at it, so no two share one;
`utp_close` has been called at most once on each; a `socket` that can reach `do_connect` has its
libutp context; no event calls libutp on a dead socket, on none, or without a context; and what
`remote_endpoint` asks for the peer is alive. -/
theorem handles_live {w : World} (h : Reachable Enabled step {} w) :
    (∀ i u, (w.impls i).utpSocket = some u → (w.utp u).alive = true ∧ (w.utp u).userdata = some i) ∧
    (∀ i j u, (w.impls i).utpSocket = some u → (w.impls j).utpSocket = some u → i = j) ∧
    (∀ u, (w.utp u).closes ≤ 1) ∧
    (∀ v i, (w.sockets v).impl = some i → w.ctx.utpCtx = true) ∧
    (∀ ev, w.Enabled ev → w.step ev ≠ .error .deadSocket ∧ w.step ev ≠ .error .nullSocket ∧
      w.step ev ≠ .error .nullContext) ∧
    (∀ i u, w.getpeernameOn i = some u → (w.utp u).alive = true) := by
  have hw := reachable_sound h
  have hatt := hw.handles.attached
  refine ⟨fun i u hu => (hatt i u hu).2, fun i j u hi hj => ?_, hw.handles.closes, fun v i hi => ?_,
    fun ev hen => step_ne_dead hw hen, fun i u hu => (hatt i u hu).2.1⟩
  · have h1 := (hatt i u hi).2.2
    have h2 := (hatt j u hj).2.2
    rw [h1] at h2
    cases h2
    rfl
  · exact hw.formed.utpCtx (hw.formed.sockets v i hi).2.2.2

/-- Two connected sockets; one is closed, and the packet `utp_close` sends fails: the other is
closed as well, and both keep their `utp_socket` until libutp destroys it. -/
theorem handles_live_reentrant :
    ∃ w, Run Enabled step {} [.socket, .socket, .bind 0, .bind 1, .asyncConnect 0 default [] [.other 5],
        .asyncConnect 1 default [] [], .close 0, .stateChange 0 .destroying []] w ∧
      (w.impls 1).closed = true ∧ (w.impls 1).utpSocket = some 1 ∧ (w.utp 1).alive = true ∧
      (w.utp 1).userdata = some 1 ∧ (w.utp 1).closes = 1 := by
  obtain ⟨w, hrun, hclosed, hu, hcloses⟩ := exists_run Enabled step {}
    [.socket, .socket, .bind 0, .bind 1, .asyncConnect 0 default [] [.other 5],
      .asyncConnect 1 default [] [], .close 0, .stateChange 0 .destroying []]
    (fun w => (w.impls 1).closed = true ∧ (w.impls 1).utpSocket = some 1 ∧ 0 < (w.utp 1).closes) (by decide)
  obtain ⟨hatt, -, hle, -⟩ := handles_live ⟨_, hrun⟩
  obtain ⟨h1, h2⟩ := hatt 1 1 hu
  have := hle 1
  exact ⟨w, hrun, hclosed, hu, h1, h2, by omega⟩

end World

end AsioUtp
