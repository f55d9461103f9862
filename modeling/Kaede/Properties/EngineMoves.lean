import Kaede.AiChat.InferenceEngine

/-!
# The moves of the engine

What a step can do, with its guards, once for all invariants.

* `engineStep_move` — every step is one of these moves
* `run_flows` — at most one flow is there at any time, and exactly while the state is `Generating`
-/

namespace Kaede.AiChat

open Infra

variable {Token : Type*} (host : Host Token)

/-- A step from `s`: the event, the engine after it, and what is seen of it. -/
inductive Move (s : Engine Token) : EngineEvent Token → Engine Token → Seen → Prop
  /-- A call is thrown back. Only the count of the calls that wait may change. -/
  | rejected (e : EngineEvent Token) (cleanUps destroys : Nat) (hfree : s.running = none) :
    Move s e { s with waitingCleanUps := cleanUps, waitingDestroys := destroys } .threw
  | libraryLoaded (hfree : s.running = none) (hstate : s.state = .uninitialized) :
    Move s (.init true) { s with state := .initialized } .nothing
  | libraryMissing (hfree : s.running = none) (hstate : s.state = .uninitialized) :
    Move s (.init false) { s with state := .initializing } .threw
  | fileRejected (hfree : s.running = none) (hstate : s.state = .initialized) :
    Move s (.loadModel .fileRejected) { s with state := .error } .threw
  | loadFailed (hfree : s.running = none) (hstate : s.state = .initialized) :
    Move s (.loadModel .loadFailed) { s with state := .error, readyForSystemPrompt := false } .threw
  | prepareFailed (hfree : s.running = none) (hstate : s.state = .initialized) :
    Move s (.loadModel .prepareFailed)
      { s with
        state := .error
        readyForSystemPrompt := false
        resources := s.resources.load.useModel } .threw
  | loaded (hfree : s.running = none) (hstate : s.state = .initialized) :
    Move s (.loadModel .loaded)
      { s with
        state := .modelReady
        readyForSystemPrompt := true
        cancelGeneration := false
        resources := s.resources.load.prepare
        session := { s.session with memory := [] } } .nothing
  | systemPrompted (prompt : Text) (computed : Nat → Bool) (session : Session Token)
      (hfree : s.running = none) (hstate : s.state = .modelReady)
      (hready : s.readyForSystemPrompt = true) :
    Move s (.setSystemPrompt prompt computed)
      { s with
        readyForSystemPrompt := false
        resources := s.resources.useContext
        session } .nothing
  | systemPromptFailed (prompt : Text) (computed : Nat → Bool) (session : Session Token)
      (hfree : s.running = none) (hstate : s.state = .modelReady)
      (hready : s.readyForSystemPrompt = true) :
    Move s (.setSystemPrompt prompt computed)
      { s with
        state := .error
        readyForSystemPrompt := false
        resources := s.resources.useContext
        session } .threw
  | prompted (flow : Nat) (message : Text) (predictLength : Int32) (computed : Nat → Bool)
      (session : Session Token) (hfree : s.running = none) (hstate : s.state = .modelReady)
      (hsession : s.session.processUserPrompt host.model (host.utfChars message) predictLength
        computed = (session, 0)) :
    Move s (.sendUserPrompt flow message predictLength computed)
      { s with
        state := .generating
        readyForSystemPrompt := false
        running := some (flow, .test)
        resources := s.resources.useContext
        session } .nothing
  | promptRefused (flow : Nat) (message : Text) (predictLength : Int32) (computed : Nat → Bool)
      (session : Session Token) (n : Nat) (hfree : s.running = none) (hstate : s.state = .modelReady)
      (hsession : s.session.processUserPrompt host.model (host.utfChars message) predictLength
        computed = (session, n + 1)) :
    Move s (.sendUserPrompt flow message predictLength computed)
      { s with
        state := .processingUserPrompt
        readyForSystemPrompt := false
        resources := s.resources.useContext
        session } .nothing
  | aborted (flow : Nat) (hflow : s.running = some (flow, .test))
      (hcancel : s.cancelGeneration = true) :
    Move s .readFlag { s with state := .modelReady, running := none } .nothing
  | goesOn (flow : Nat) (hflow : s.running = some (flow, .test))
      (hcancel : s.cancelGeneration = false) :
    Move s .readFlag { s with running := some (flow, .generate) } .nothing
  | ended (flow : Nat) (newTokenId : Token) (computed : Bool) (session : Session Token)
      (hflow : s.running = some (flow, .generate))
      (hsession : s.session.generateNextToken host.model newTokenId computed = (session, none)) :
    Move s (.generateNextToken newTokenId computed)
      { s with
        state := .modelReady
        running := none
        resources := s.resources.useContext
        session } .nothing
  | heldBack (flow : Nat) (newTokenId : Token) (computed : Bool) (session : Session Token)
      (hflow : s.running = some (flow, .generate))
      (hsession : s.session.generateNextToken host.model newTokenId computed = (session, some [])) :
    Move s (.generateNextToken newTokenId computed)
      { s with
        running := some (flow, .test)
        resources := s.resources.useContext
        session } .nothing
  | generated (flow : Nat) (newTokenId : Token) (computed : Bool) (session : Session Token)
      (utf8token : List UInt8) (hflow : s.running = some (flow, .generate)) (hne : utf8token ≠ [])
      (hsession : s.session.generateNextToken host.model newTokenId computed =
        (session, some utf8token)) :
    Move s (.generateNextToken newTokenId computed)
      { s with
        running := some (flow, .emit utf8token)
        resources := s.resources.useContext
        session } .nothing
  | emitted (flow : Nat) (utf8token : List UInt8)
      (hflow : s.running = some (flow, .emit utf8token)) :
    Move s .emit { s with running := none, suspended := flow :: s.suspended } (.emitted utf8token)
  | resumed (flow : Nat) (hfree : s.running = none) (hflow : flow ∈ s.suspended) :
    Move s (.resume flow)
      { s with running := some (flow, .test), suspended := s.suspended.erase flow } .nothing
  | flowCancelled (flow : Nat) (hfree : s.running = none) (hflow : flow ∈ s.suspended) :
    Move s (.cancelFlow flow)
      { s with state := .modelReady, suspended := s.suspended.erase flow } .threw
  | benched (hfree : s.running = none) (hstate : s.state = .modelReady) :
    Move s .bench
      { s with readyForSystemPrompt := false, resources := s.resources.useModel } .nothing
  | cleanUpRequested :
    Move s .requestCleanUp
      { s with cancelGeneration := true, waitingCleanUps := s.waitingCleanUps + 1 } .nothing
  | destroyRequested :
    Move s .requestDestroy
      { s with cancelGeneration := true, waitingDestroys := s.waitingDestroys + 1 } .nothing
  | unloaded (hfree : s.running = none) (hstate : s.state = .modelReady) :
    Move s .cleanUp
      { s with
        waitingCleanUps := s.waitingCleanUps - 1
        state := .initialized
        readyForSystemPrompt := false
        resources := s.resources.unload
        session := s.session.unload } .nothing
  | errorReset (hfree : s.running = none) (hstate : s.state = .error) :
    Move s .cleanUp
      { s with waitingCleanUps := s.waitingCleanUps - 1, state := .initialized } .nothing
  | destroyedIdle (hfree : s.running = none) :
    Move s .destroy
      { s with waitingDestroys := s.waitingDestroys - 1, readyForSystemPrompt := false } .nothing
  | destroyed (hfree : s.running = none) :
    Move s .destroy
      { s with
        waitingDestroys := s.waitingDestroys - 1
        readyForSystemPrompt := false
        resources := s.resources.unload
        session := s.session.unload } .nothing

variable {host} {s s' : Engine Token} {e : EngineEvent Token} {seen : Seen}

theorem onDispatcher_eq_some {r r' : Engine Token × Seen} :
    onDispatcher s r = some r' ↔ s.running = none ∧ r = r' := by
  unfold onDispatcher
  split
  · next h => simp [h]
  · next h => simp [h]

theorem loadModel_move {outcome : LoadOutcome} (hfree : s.running = none)
    (h : s.loadModel outcome = (s', seen)) : Move host s (.loadModel outcome) s' seen := by
  unfold Engine.loadModel at h
  split at h
  · next hstate =>
    cases outcome <;> cases h
    · exact .fileRejected hfree hstate
    · exact .loadFailed hfree hstate
    · exact .prepareFailed hfree hstate
    · exact .loaded hfree hstate
  · cases h
    exact .rejected _ _ _ hfree

theorem setSystemPrompt_move {prompt : Text} {computed : Nat → Bool} (hfree : s.running = none)
    (h : s.setSystemPrompt host prompt computed = (s', seen)) :
    Move host s (.setSystemPrompt prompt computed) s' seen := by
  unfold Engine.setSystemPrompt at h
  split at h
  · cases h
    exact .rejected _ _ _ hfree
  split at h
  · cases h
    exact .rejected _ _ _ hfree
  next hready =>
  have hready : s.readyForSystemPrompt = true := by simpa using hready
  split at h
  · next hstate =>
    split at h
    · cases h
      exact .systemPrompted _ _ _ hfree hstate hready
    · cases h
      exact .systemPromptFailed _ _ _ hfree hstate hready
  · cases h
    exact .rejected _ _ _ hfree

theorem sendUserPrompt_move {flow : Nat} {message : Text} {predictLength : Int32}
    {computed : Nat → Bool} (hfree : s.running = none)
    (h : s.sendUserPrompt host flow message predictLength computed = (s', seen)) :
    Move host s (.sendUserPrompt flow message predictLength computed) s' seen := by
  unfold Engine.sendUserPrompt at h
  split at h
  · cases h
    exact .rejected _ _ _ hfree
  split at h
  · next hstate =>
    split at h
    · next hsession =>
      cases h
      exact .prompted _ _ _ _ _ hfree hstate hsession
    · next session n hno hsession =>
      cases h
      obtain ⟨n, rfl⟩ := Nat.exists_eq_succ_of_ne_zero fun hzero => hno hzero
      exact .promptRefused _ _ _ _ _ _ hfree hstate hsession
  · cases h
    exact .rejected _ _ _ hfree

theorem readFlag_move {flow : Nat} (hflow : s.running = some (flow, .test))
    (h : s.readFlag flow = (s', seen)) : Move host s .readFlag s' seen := by
  unfold Engine.readFlag at h
  split at h
  · next hcancel =>
    cases h
    exact .aborted _ hflow hcancel
  · next hcancel =>
    cases h
    exact .goesOn _ hflow (by simpa using hcancel)

theorem generateNextToken_move {flow : Nat} {newTokenId : Token} {computed : Bool}
    (hflow : s.running = some (flow, .generate))
    (h : s.generateNextToken host flow newTokenId computed = (s', seen)) :
    Move host s (.generateNextToken newTokenId computed) s' seen := by
  unfold Engine.generateNextToken at h
  split at h
  · next hsession =>
    cases h
    exact .ended _ _ _ _ hflow hsession
  · next hsession =>
    cases h
    exact .heldBack _ _ _ _ hflow hsession
  · next session utf8token hne hsession =>
    cases h
    exact .generated _ _ _ _ _ hflow (fun hnil => hne hnil) hsession

theorem bench_move (hfree : s.running = none) (h : s.bench = (s', seen)) :
    Move host s .bench s' seen := by
  unfold Engine.bench at h
  split at h
  · next hstate =>
    cases h
    exact .benched hfree hstate
  · cases h
    exact .rejected _ _ _ hfree

theorem cleanUp_move (hfree : s.running = none)
    (h : ({ s with waitingCleanUps := s.waitingCleanUps - 1 } : Engine Token).cleanUp = (s', seen)) :
    Move host s .cleanUp s' seen := by
  unfold Engine.cleanUp at h
  split at h
  · next hstate =>
    cases h
    exact .unloaded hfree hstate
  · next hstate =>
    cases h
    exact .errorReset hfree hstate
  · cases h
    exact .rejected _ _ _ hfree

theorem destroy_move (hfree : s.running = none)
    (h : ({ s with waitingDestroys := s.waitingDestroys - 1 } : Engine Token).destroy = (s', seen)) :
    Move host s .destroy s' seen := by
  unfold Engine.destroy at h
  split at h
  · cases h
    exact .destroyedIdle hfree
  · cases h
    exact .destroyedIdle hfree
  · cases h
    exact .destroyed hfree

/-- **Every step is one of the moves.** -/
theorem engineStep_move (h : engineStep host s e = some (s', seen)) : Move host s e s' seen := by
  cases e with
  | init libraryLoaded =>
    obtain ⟨hfree, h⟩ := onDispatcher_eq_some.mp h
    unfold Engine.init at h
    split at h
    · next hstate =>
      cases libraryLoaded with
      | true =>
        cases h
        exact .libraryLoaded hfree hstate
      | false =>
        cases h
        exact .libraryMissing hfree hstate
    · cases h
      exact .rejected _ _ _ hfree
  | loadModel outcome =>
    obtain ⟨hfree, h⟩ := onDispatcher_eq_some.mp h
    exact loadModel_move hfree h
  | setSystemPrompt prompt computed =>
    obtain ⟨hfree, h⟩ := onDispatcher_eq_some.mp h
    exact setSystemPrompt_move hfree h
  | sendUserPrompt flow message predictLength computed =>
    obtain ⟨hfree, h⟩ := onDispatcher_eq_some.mp h
    exact sendUserPrompt_move hfree h
  | readFlag =>
    simp only [engineStep] at h
    split at h
    · next flow hflow => exact readFlag_move hflow (Option.some.inj h)
    · cases h
  | generateNextToken newTokenId computed =>
    simp only [engineStep] at h
    split at h
    · next flow hflow => exact generateNextToken_move hflow (Option.some.inj h)
    · cases h
  | emit =>
    simp only [engineStep] at h
    split at h
    · next flow utf8token hflow =>
      cases h
      exact .emitted flow utf8token hflow
    · cases h
  | resume flow =>
    simp only [engineStep] at h
    split at h
    · next hmem =>
      obtain ⟨hfree, h⟩ := onDispatcher_eq_some.mp h
      cases h
      exact .resumed flow hfree hmem
    · cases h
  | cancelFlow flow =>
    simp only [engineStep] at h
    split at h
    · next hmem =>
      obtain ⟨hfree, h⟩ := onDispatcher_eq_some.mp h
      cases h
      exact .flowCancelled flow hfree hmem
    · cases h
  | bench =>
    obtain ⟨hfree, h⟩ := onDispatcher_eq_some.mp h
    exact bench_move hfree h
  | requestCleanUp =>
    cases h
    exact .cleanUpRequested
  | cleanUp =>
    simp only [engineStep] at h
    split at h
    · obtain ⟨hfree, h⟩ := onDispatcher_eq_some.mp h
      exact cleanUp_move hfree h
    · cases h
  | requestDestroy =>
    cases h
    exact .destroyRequested
  | destroy =>
    simp only [engineStep] at h
    split at h
    · obtain ⟨hfree, h⟩ := onDispatcher_eq_some.mp h
      exact destroy_move hfree h
    · cases h

theorem step_move (h : (engineMachine host).step s e = some s') :
    ∃ seen, engineStep host s e = some (s', seen) ∧ Move host s e s' seen := by
  obtain ⟨⟨s₁, seen⟩, hstep, rfl⟩ := Option.map_eq_some_iff.mp h
  exact ⟨seen, hstep, engineStep_move hstep⟩

/-! ## The flows -/

/-- One flow while the state is `Generating`, and none otherwise. -/
inductive Flows (s : Engine Token) : Prop
  | running (flow : Nat) (point : LoopPoint) (hstate : s.state = .generating)
      (hrunning : s.running = some (flow, point)) (hsuspended : s.suspended = [])
  | suspended (flow : Nat) (hstate : s.state = .generating) (hrunning : s.running = none)
      (hsuspended : s.suspended = [flow])
  | none (hstate : s.state ≠ .generating) (hrunning : s.running = none) (hsuspended : s.suspended = [])

theorem Flows.of_running {flow : Nat} {point : LoopPoint} (h : Flows s)
    (hflow : s.running = some (flow, point)) : s.state = .generating ∧ s.suspended = [] := by
  cases h with
  | running _ _ hstate _ hsuspended => exact ⟨hstate, hsuspended⟩
  | suspended _ _ hrunning _ => rw [hrunning] at hflow; cases hflow
  | none _ hrunning _ => rw [hrunning] at hflow; cases hflow

theorem Flows.of_mem {flow : Nat} (h : Flows s) (hflow : flow ∈ s.suspended) :
    s.state = .generating ∧ s.running = .none ∧ s.suspended = [flow] := by
  cases h with
  | running _ _ _ _ hsuspended => rw [hsuspended] at hflow; cases hflow
  | suspended other hstate hrunning hsuspended =>
    rw [hsuspended, List.mem_singleton] at hflow
    exact ⟨hstate, hrunning, hflow ▸ hsuspended⟩
  | none _ _ hsuspended => rw [hsuspended] at hflow; cases hflow

theorem Flows.of_state (h : Flows s) (hstate : s.state ≠ .generating) :
    s.running = .none ∧ s.suspended = [] := by
  cases h with
  | running _ _ hgen _ _ => exact absurd hgen hstate
  | suspended _ hgen _ _ => exact absurd hgen hstate
  | none _ hrunning hsuspended => exact ⟨hrunning, hsuspended⟩

/-- What changes neither the state nor the flows. -/
theorem Flows.congr (h : Flows s) (hstate : s'.state = s.state) (hrunning : s'.running = s.running)
    (hsuspended : s'.suspended = s.suspended) : Flows s' := by
  cases h with
  | running flow point h1 h2 h3 =>
    exact .running flow point (hstate.trans h1) (hrunning.trans h2) (hsuspended.trans h3)
  | suspended flow h1 h2 h3 =>
    exact .suspended flow (hstate.trans h1) (hrunning.trans h2) (hsuspended.trans h3)
  | none h1 h2 h3 => exact .none (hstate ▸ h1) (hrunning.trans h2) (hsuspended.trans h3)

theorem Move.flows (hmove : Move host s e s' seen) (h : Flows s) : Flows s' := by
  -- a state that is not `Generating` has no flow, and keeps having none
  have hidle : ∀ {st : State}, s.state = st → st ≠ .generating →
      s.running = .none ∧ s.suspended = [] := by
    rintro _ rfl hne
    exact h.of_state hne
  cases hmove with
  | rejected => exact h.congr rfl rfl rfl
  | libraryLoaded _ hstate | libraryMissing _ hstate | fileRejected _ hstate | loadFailed _ hstate
  | prepareFailed _ hstate | loaded _ hstate | unloaded _ hstate | errorReset _ hstate =>
    obtain ⟨hrunning, hsuspended⟩ := hidle hstate (by simp)
    exact .none (by simp) hrunning hsuspended
  | systemPromptFailed _ _ _ _ hstate | promptRefused _ _ _ _ _ _ _ hstate =>
    obtain ⟨hrunning, hsuspended⟩ := hidle hstate (by simp)
    exact .none (by simp) hrunning hsuspended
  | systemPrompted | benched | cleanUpRequested | destroyRequested | destroyedIdle | destroyed =>
    exact h.congr rfl rfl rfl
  | prompted flow _ _ _ _ _ hstate =>
    exact .running flow .test rfl rfl (hidle hstate (by simp)).2
  | aborted flow hflow | ended flow _ _ _ hflow =>
    exact .none (by simp) rfl (h.of_running hflow).2
  | goesOn flow hflow | heldBack flow _ _ _ hflow | generated flow _ _ _ _ hflow =>
    obtain ⟨hstate, hsuspended⟩ := h.of_running hflow
    exact .running flow _ hstate rfl hsuspended
  | emitted flow _ hflow =>
    obtain ⟨hstate, hsuspended⟩ := h.of_running hflow
    exact .suspended flow hstate rfl (by rw [hsuspended])
  | resumed flow _ hflow =>
    obtain ⟨hstate, -, hsuspended⟩ := h.of_mem hflow
    exact .running flow .test hstate rfl (by rw [hsuspended, List.erase_cons_head])
  | flowCancelled flow hfree hflow =>
    obtain ⟨-, -, hsuspended⟩ := h.of_mem hflow
    exact .none (by simp) hfree (by rw [hsuspended, List.erase_cons_head])

theorem flows_created : Flows (Engine.created : Engine Token) := .none (by simp [Engine.created]) rfl rfl

/-- **At most one flow.** -/
theorem run_flows {es : List (EngineEvent Token)} (h : Flows s)
    (hr : (engineMachine host).run s es = some s') : Flows s' := by
  refine Machine.run_invariant (I := Flows) ?_ h hr
  intro s e t hflows hstep
  obtain ⟨seen, -, hmove⟩ := step_move hstep
  exact hmove.flows hflows

end Kaede.AiChat
