import Kaede.Properties.EngineResources
import Kaede.Properties.Reply

/-!
# What the collectors get from the engine

* `run_reply` — while a reply is generated the texts are those of the session, whatever else is
  called meanwhile
* `run_cancelled` — after a `cleanUp` or a `destroy` was called no text is emitted until a model is
  loaded again, but for the turn under way
* `run_refused` — a refused prompt is the last thing the engine does
* `run_unfit` — after a prompt that does not fit no text is emitted until the model is unloaded
-/

namespace Kaede.AiChat

open Infra Session

variable {Token : Type*} {host : Host Token} {s s' : Engine Token} {e : EngineEvent Token}
  {seen : Seen}

/-- What the engine emits along a run. -/
def emissions (host : Host Token) (s : Engine Token) (es : List (EngineEvent Token)) :
    List (List UInt8) :=
  (engineMachine host).outputs (emission host) s es

theorem emissions_cons {es : List (EngineEvent Token)} (h : engineStep host s e = some (s', seen)) :
    emissions host s (e :: es) = (emission host s e).toList ++ emissions host s' es :=
  Machine.outputs_cons_of_step (by
    show (engineStep host s e).map Prod.fst = some s'
    rw [h]
    rfl) es

theorem emission_eq (h : engineStep host s e = some (s', seen)) : emission host s e = seen.text := by
  unfold emission
  rw [h]
  rfl

theorem Seen.text_of_ne (h : ∀ utf8token, seen ≠ .emitted utf8token) : seen.text = none := by
  cases seen with
  | emitted utf8token => exact absurd rfl (h utf8token)
  | nothing => rfl
  | threw => rfl

/-- A step that emits nothing. -/
theorem emissions_of_silent {es : List (EngineEvent Token)}
    (h : engineStep host s e = some (s', seen)) (hseen : ∀ utf8token, seen ≠ .emitted utf8token) :
    emissions host s (e :: es) = emissions host s' es := by
  rw [emissions_cons h, emission_eq h, Seen.text_of_ne hseen]
  rfl

/-- A run that emits nothing as long as a property of the engine lasts. -/
theorem run_silent {I : Engine Token → Prop} {G : Engine Token → EngineEvent Token → Prop}
    (hstep : ∀ s e s' seen, I s → G s e → engineStep host s e = some (s', seen) →
      I s' ∧ ∀ utf8token, seen ≠ .emitted utf8token)
    {es : List (EngineEvent Token)} (h : I s) (halong : (engineMachine host).Along G s es)
    (hr : (engineMachine host).run s es = some s') : I s' ∧ emissions host s es = [] := by
  induction es generalizing s with
  | nil =>
    rw [Machine.run_nil, Option.some.injEq] at hr
    exact ⟨hr ▸ h, rfl⟩
  | cons e es ih =>
    obtain ⟨t, ht, hrun⟩ := (Machine.run_cons_eq_some _).mp hr
    obtain ⟨seen, hs, -⟩ := step_move ht
    obtain ⟨hI, hseen⟩ := hstep s e t seen h halong.1 hs
    obtain ⟨hI', hsilent⟩ := ih hI (halong.2 t ht) hrun
    exact ⟨hI', (emissions_of_silent hs hseen).trans hsilent⟩

/-! ## After a cancellation -/

/-- A load that succeeds. -/
def LoadsModel (s : Engine Token) (e : EngineEvent Token) : Prop :=
  e = .loadModel .loaded ∧ s.state = .initialized

/-- The texts that the flow on the dispatcher can still emit once the flag is set: one, if it has
read the flag before. -/
def underWay (s : Engine Token) : Nat :=
  match s.running with
  | some (_, .generate) | some (_, .emit _) => 1
  | _ => 0

theorem underWay_of_free (h : s.running = none) : underWay s = 0 := by
  unfold underWay
  rw [h]

theorem underWay_eq {flow : Nat} {point : LoopPoint} (h : s.running = some (flow, point)) :
    underWay s = if point = .test then 0 else 1 := by
  unfold underWay
  rw [h]
  cases point <;> rfl

theorem step_cancelled (h : s.cancelGeneration = true) (hload : ¬ LoadsModel s e)
    (hstep : engineStep host s e = some (s', seen)) :
    s'.cancelGeneration = true ∧ seen.text.toList.length + underWay s' ≤ underWay s := by
  have hmove := engineStep_move hstep
  cases hmove with
  | loaded _ hstate => exact absurd ⟨rfl, hstate⟩ hload
  | goesOn _ _ hcancel =>
    rw [h] at hcancel
    cases hcancel
  | cleanUpRequested | destroyRequested => exact ⟨rfl, Nat.le_of_eq (Nat.zero_add _)⟩
  | heldBack flow _ _ _ hflow | generated flow _ _ _ _ hflow =>
    refine ⟨h, ?_⟩
    rw [underWay_eq hflow, underWay_eq rfl]
    simp [Seen.text]
  | aborted flow hflow | ended flow _ _ _ hflow => exact ⟨h, Nat.zero_le _⟩
  | emitted flow utf8token hflow =>
    refine ⟨h, ?_⟩
    rw [underWay_eq hflow, underWay_of_free rfl]
    simp [Seen.text]
  | prompted flow _ _ _ _ hfree =>
    refine ⟨h, ?_⟩
    rw [underWay_of_free hfree, underWay_eq rfl]
    simp [Seen.text]
  | resumed flow hfree =>
    refine ⟨h, ?_⟩
    rw [underWay_of_free hfree, underWay_eq rfl]
    simp [Seen.text]
  | _ => exact ⟨h, Nat.le_of_eq (Nat.zero_add _)⟩

/-- As long as the flag is set, a run emits what was under way at most. -/
theorem run_flagged {es : List (EngineEvent Token)} (h : s.cancelGeneration = true)
    (hload : (engineMachine host).Along (fun s e => ¬ LoadsModel s e) s es)
    (hr : (engineMachine host).run s es = some s') :
    s'.cancelGeneration = true ∧ (emissions host s es).length + underWay s' ≤ underWay s := by
  induction es generalizing s with
  | nil =>
    rw [Machine.run_nil, Option.some.injEq] at hr
    exact ⟨hr ▸ h, by rw [hr]; exact Nat.le_of_eq (Nat.zero_add _)⟩
  | cons e es ih =>
    obtain ⟨t, ht, hrun⟩ := (Machine.run_cons_eq_some _).mp hr
    obtain ⟨seen, hs, -⟩ := step_move ht
    obtain ⟨hflag, hone⟩ := step_cancelled h hload.1 hs
    obtain ⟨hflag', hrest⟩ := ih hflag (hload.2 t ht) hrun
    refine ⟨hflag', ?_⟩
    rw [emissions_cons hs, emission_eq hs, List.length_append]
    omega

/-- The events up to the first turn of a flow, which has read the flag. -/
def intoTurn : List (EngineEvent UInt8) :=
  [.init true, .loadModel .loaded, .sendUserPrompt 0 (utf16 "hi") 16 fun _ => true, .readFlag]

/-- A call of `cleanUp` in the turn, which goes on to its end. -/
def cleanUpInTurn : List (EngineEvent UInt8) :=
  [.requestCleanUp, .generateNextToken 0x61 true, .emit, .resume 0, .readFlag, .cleanUp]

/-- The engine is stuck in `ProcessingUserPrompt`. -/
def Stuck (s : Engine Token) : Prop := Flows s ∧ s.state = .processingUserPrompt

/-- The call is thrown back, or only leaves a request, or destroys. -/
def ThrownBack (host : Host Token) (s : Engine Token) (e : EngineEvent Token) : Prop :=
  ∀ s' seen, engineStep host s e = some (s', seen) →
    seen = .threw ∨ e = .requestCleanUp ∨ e = .requestDestroy ∨ e = .destroy

theorem Stuck.step (h : Stuck s) (hstep : engineStep host s e = some (s', seen)) :
    Stuck s' ∧ (seen = .threw ∨ e = .requestCleanUp ∨ e = .requestDestroy ∨ e = .destroy) ∧
      ∀ utf8token, seen ≠ .emitted utf8token := by
  obtain ⟨hflows, hstate⟩ := h
  obtain ⟨hrunning, hsuspended⟩ := hflows.of_state (by rw [hstate]; simp)
  have hmove := engineStep_move hstep
  have hflows' := hmove.flows hflows
  cases hmove with
  | rejected => exact ⟨⟨hflows', hstate⟩, Or.inl rfl, by simp⟩
  | cleanUpRequested => exact ⟨⟨hflows', hstate⟩, Or.inr (Or.inl rfl), by simp⟩
  | destroyRequested => exact ⟨⟨hflows', hstate⟩, Or.inr (Or.inr (Or.inl rfl)), by simp⟩
  | destroyedIdle | destroyed => exact ⟨⟨hflows', hstate⟩, Or.inr (Or.inr (Or.inr rfl)), by simp⟩
  | aborted _ hflow | goesOn _ hflow | ended _ _ _ _ hflow | heldBack _ _ _ _ hflow
  | generated _ _ _ _ _ hflow | emitted _ _ hflow =>
    rw [hrunning] at hflow
    cases hflow
  | resumed _ _ hflow | flowCancelled _ _ hflow =>
    rw [hsuspended] at hflow
    cases hflow
  | libraryLoaded _ h | libraryMissing _ h | fileRejected _ h | loadFailed _ h | prepareFailed _ h
  | loaded _ h | systemPrompted _ _ _ _ h | systemPromptFailed _ _ _ _ h | prompted _ _ _ _ _ _ h
  | promptRefused _ _ _ _ _ _ _ h | benched _ h | unloaded _ h | errorReset _ h =>
    rw [hstate] at h
    cases h

theorem Stuck.run {es : List (EngineEvent Token)} (h : Stuck s)
    (hr : (engineMachine host).run s es = some s') :
    Stuck s' ∧ (engineMachine host).Along (ThrownBack host) s es ∧ emissions host s es = [] := by
  induction es generalizing s with
  | nil =>
    rw [Machine.run_nil, Option.some.injEq] at hr
    exact ⟨hr ▸ h, trivial, rfl⟩
  | cons e es ih =>
    obtain ⟨t, ht, hrun⟩ := (Machine.run_cons_eq_some _).mp hr
    obtain ⟨seen, hs, -⟩ := step_move ht
    obtain ⟨hstuck, hthrown, hseen⟩ := h.step hs
    obtain ⟨hstuck', halong, hsilent⟩ := ih hstuck hrun
    refine ⟨hstuck', ⟨fun t' seen' hs' => ?_, fun t' ht' => ?_⟩, ?_⟩
    · rw [hs] at hs'
      cases hs'
      exact hthrown
    · rw [ht] at ht'
      cases ht'
      exact halong
    · exact (emissions_of_silent hs hseen).trans hsilent

/-- A prompt that the session refuses. -/
theorem sendUserPrompt_stuck {flow : Nat} {message : Text} {predictLength : Int32}
    {computed : Nat → Bool} (hflows : Flows s) (hmessage : message ≠ [])
    (hstate : s.state = .modelReady)
    (hrefused : (s.session.processUserPrompt host.model (host.utfChars message) predictLength
      computed).2 ≠ 0)
    (hstep : engineStep host s (.sendUserPrompt flow message predictLength computed) =
      some (s', seen)) : Stuck s' ∧ seen = .nothing := by
  have hflows' := (engineStep_move hstep).flows hflows
  obtain ⟨-, hsend⟩ := onDispatcher_eq_some.mp hstep
  unfold Engine.sendUserPrompt at hsend
  rw [if_neg (by simpa using hmessage), if_pos hstate] at hsend
  split at hsend
  · next hok =>
    rw [hok] at hrefused
    exact absurd rfl hrefused
  · cases hsend
    exact ⟨⟨hflows', rfl⟩, rfl⟩

/--
**A refused prompt is the last thing the engine does.** No load, prompt, benchmark or clean-up is
accepted after it, in any order and any number, and nothing is emitted.
-/
theorem run_refused {flow : Nat} {message : Text} {predictLength : Int32} {computed : Nat → Bool}
    {es : List (EngineEvent Token)} (hflows : Flows s) (hmessage : message ≠ [])
    (hstate : s.state = .modelReady)
    (hrefused : (s.session.processUserPrompt host.model (host.utfChars message) predictLength
      computed).2 ≠ 0)
    (hr : (engineMachine host).run s (.sendUserPrompt flow message predictLength computed :: es) =
      some s') :
    s'.state = .processingUserPrompt ∧
      emissions host s (.sendUserPrompt flow message predictLength computed :: es) = [] ∧
      ∀ t, (engineMachine host).step s (.sendUserPrompt flow message predictLength computed) = some t →
        (engineMachine host).Along (ThrownBack host) t es := by
  obtain ⟨t, ht, hrun⟩ := (Machine.run_cons_eq_some _).mp hr
  obtain ⟨seen, hs, -⟩ := step_move ht
  obtain ⟨hstuck, rfl⟩ := sendUserPrompt_stuck hflows hmessage hstate hrefused hs
  obtain ⟨hstuck', halong, hsilent⟩ := hstuck.run hrun
  refine ⟨hstuck'.2, ?_, fun t' ht' => ?_⟩
  · exact (emissions_of_silent hs (by simp)).trans hsilent
  · rw [ht] at ht'
    cases ht'
    exact halong

/-- An engine whose memory runs ahead. -/
def aheadEngine : Engine UInt8 :=
  { (Engine.created : Engine UInt8) with state := .modelReady, session := oneAhead }

/-- A prompt, and calls of all kinds after it. -/
def callsAfter : List (EngineEvent UInt8) :=
  [.sendUserPrompt 1 (utf16 "hello") 16 fun _ => true, .loadModel .loaded, .bench, .requestCleanUp,
    .cleanUp, .setSystemPrompt (utf16 "kind") fun _ => true]

theorem run_refused_ahead :
    ∃ s', (engineMachine byteHost).run aheadEngine
        (.sendUserPrompt 0 (utf16 "hi") 16 (fun _ => true) :: callsAfter) = some s' ∧
      s'.state = .processingUserPrompt ∧
      emissions byteHost aheadEngine
        (.sendUserPrompt 0 (utf16 "hi") 16 (fun _ => true) :: callsAfter) = [] := by
  have hflows : Flows aheadEngine := .none (by simp [aheadEngine]) rfl rfl
  have hahead : Ahead aheadEngine.session :=
    ⟨(0, 0x68), List.mem_singleton_self _, Nat.le_refl 0⟩
  have hrefused := (processUserPrompt_of_ahead byteHost.model (byteHost.utfChars (utf16 "hi")) 16
    (fun _ => true) hahead).2 (by decide)
  have hend : ((engineMachine byteHost).run aheadEngine
      (.sendUserPrompt 0 (utf16 "hi") 16 (fun _ => true) :: callsAfter)).isSome = true := by
    decide +kernel
  obtain ⟨s', hs'⟩ := Option.isSome_iff_exists.mp hend
  obtain ⟨hstate, hsilent, -⟩ := run_refused hflows (by decide) rfl (by rw [hrefused]; simp) hs'
  exact ⟨s', hs', hstate, hsilent⟩

/-! ## After a prompt that does not fit -/

/-- The memory runs ahead, and no system prompt can be set any more. -/
structure Doomed (s : Engine Token) : Prop where
  flows : Flows s
  state : s.state = .modelReady ∨ s.state = .generating ∨ s.state = .processingUserPrompt
  notReady : s.readyForSystemPrompt = false
  ahead : Ahead s.session
  /-- No text is about to be emitted. -/
  nothing : ∀ flow utf8token, s.running ≠ some (flow, .emit utf8token)

/-- The model is neither unloaded nor destroyed. -/
def KeepsModel (s : Engine Token) (e : EngineEvent Token) : Prop :=
  e ≠ .destroy ∧ (e = .cleanUp → s.state ≠ .modelReady)

theorem Doomed.not_idle (h : Doomed s) {st : State} (hstate : s.state = st) :
    st ≠ .uninitialized ∧ st ≠ .initialized ∧ st ≠ .error := by
  have := h.state
  rw [hstate] at this
  rcases this with rfl | rfl | rfl <;> simp

theorem Doomed.step (h : Doomed s) (hkeeps : KeepsModel s e)
    (hstep : engineStep host s e = some (s', seen)) :
    Doomed s' ∧ ∀ utf8token, seen ≠ .emitted utf8token := by
  have hmove := engineStep_move hstep
  have hflows := hmove.flows h.flows
  cases hmove with
  | rejected | cleanUpRequested | destroyRequested =>
    exact ⟨⟨hflows, h.state, h.notReady, h.ahead, h.nothing⟩, by simp⟩
  | libraryLoaded _ hstate | libraryMissing _ hstate => exact absurd rfl (h.not_idle hstate).1
  | fileRejected _ hstate | loadFailed _ hstate | prepareFailed _ hstate | loaded _ hstate =>
    exact absurd rfl (h.not_idle hstate).2.1
  | errorReset _ hstate => exact absurd rfl (h.not_idle hstate).2.2
  | systemPrompted _ _ _ _ _ hready | systemPromptFailed _ _ _ _ _ hready =>
    rw [h.notReady] at hready
    cases hready
  | prompted _ message predictLength computed session _ _ hsession =>
    have hahead := (processUserPrompt_of_ahead host.model (host.utfChars message) predictLength
      computed h.ahead).1
    rw [hsession] at hahead
    exact ⟨⟨hflows, Or.inr (Or.inl rfl), rfl, hahead, by simp⟩, by simp⟩
  | promptRefused _ message predictLength computed session _ _ _ hsession =>
    have hahead := (processUserPrompt_of_ahead host.model (host.utfChars message) predictLength
      computed h.ahead).1
    rw [hsession] at hahead
    exact ⟨⟨hflows, Or.inr (Or.inr rfl), rfl, hahead, h.nothing⟩, by simp⟩
  | aborted => exact ⟨⟨hflows, Or.inl rfl, h.notReady, h.ahead, by simp⟩, by simp⟩
  | goesOn => exact ⟨⟨hflows, h.state, h.notReady, h.ahead, by simp⟩, by simp⟩
  | ended _ newTokenId computed session _ hsession =>
    have hahead := (generateNextToken_of_ahead host.model newTokenId computed h.ahead).1
    rw [hsession] at hahead
    exact ⟨⟨hflows, Or.inl rfl, h.notReady, hahead, by simp⟩, by simp⟩
  | heldBack _ newTokenId computed session _ hsession
  | generated _ newTokenId computed session _ _ _ hsession =>
    have hnone := (generateNextToken_of_ahead host.model newTokenId computed h.ahead).2
    rw [hsession] at hnone
    cases hnone
  | emitted flow utf8token hflow => exact absurd hflow (h.nothing flow utf8token)
  | resumed => exact ⟨⟨hflows, h.state, h.notReady, h.ahead, by simp⟩, by simp⟩
  | flowCancelled => exact ⟨⟨hflows, Or.inl rfl, h.notReady, h.ahead, h.nothing⟩, by simp⟩
  | benched => exact ⟨⟨hflows, h.state, rfl, h.ahead, h.nothing⟩, by simp⟩
  | unloaded _ hstate => exact absurd hstate (hkeeps.2 rfl)
  | destroyedIdle | destroyed => exact absurd rfl hkeeps.1

/-- What the engine is in after a prompt that does not become part of the conversation. -/
theorem sendUserPrompt_unfit {flow : Nat} {message : Text} {predictLength : Int32}
    {computed : Nat → Bool} {c : Context Token} (hflows : Flows s) (hmessage : message ≠ [])
    (hstate : s.state = .modelReady) (hsync : InSync s.session c)
    (hle : (s.session.promptTokens host.model .user (host.utfChars message)).length ≤ maxBatchSize)
    (hne : s.session.promptTokens host.model .user (host.utfChars message) ≠ [])
    (hkept : 2 ≤ c.kept.length)
    (hfull : maxBatchSize ≤
      c.length + (s.session.promptTokens host.model .user (host.utfChars message)).length)
    (hstep : engineStep host s (.sendUserPrompt flow message predictLength computed) =
      some (s', seen)) :
    (Stuck s' ∨ Doomed s') ∧ seen = .nothing := by
  have hflows' := (engineStep_move hstep).flows hflows
  obtain ⟨-, -, hfits, -⟩ | ⟨-, hcodeAhead, -⟩ :=
    processUserPrompt_of_inSync predictLength computed hsync hle hne
  -- with two tokens kept, a prompt that needs a shift is not taken in
  · unfold Fits at hfits
    omega
  by_cases hcode : (s.session.processUserPrompt host.model (host.utfChars message) predictLength
      computed).2 = 0
  · have hahead := hcodeAhead hcode
    obtain ⟨-, hsend⟩ := onDispatcher_eq_some.mp hstep
    unfold Engine.sendUserPrompt at hsend
    rw [if_neg (by simpa using hmessage), if_pos hstate] at hsend
    split at hsend
    · next hok =>
      rw [hok] at hahead
      cases hsend
      exact ⟨Or.inr ⟨hflows', Or.inr (Or.inl rfl), rfl, hahead, by simp⟩, rfl⟩
    · next hno hres =>
      rw [hres] at hcode
      exact absurd hcode hno
  · obtain ⟨hstuck, hnothing⟩ := sendUserPrompt_stuck hflows hmessage hstate hcode hstep
    exact ⟨Or.inl hstuck, hnothing⟩

/--
**A prompt that does not fit silences the engine.** No text is emitted for it, nor for any prompt
after it, whatever is called in whatever order, until the model is unloaded or destroyed.
-/
theorem run_unfit {flow : Nat} {message : Text} {predictLength : Int32} {computed : Nat → Bool}
    {c : Context Token} {es : List (EngineEvent Token)} (hflows : Flows s) (hmessage : message ≠ [])
    (hstate : s.state = .modelReady) (hsync : InSync s.session c)
    (hle : (s.session.promptTokens host.model .user (host.utfChars message)).length ≤ maxBatchSize)
    (hne : s.session.promptTokens host.model .user (host.utfChars message) ≠ [])
    (hkept : 2 ≤ c.kept.length)
    (hfull : maxBatchSize ≤
      c.length + (s.session.promptTokens host.model .user (host.utfChars message)).length)
    (hkeeps : (engineMachine host).Along KeepsModel s
      (.sendUserPrompt flow message predictLength computed :: es))
    (hr : (engineMachine host).run s (.sendUserPrompt flow message predictLength computed :: es) =
      some s') :
    emissions host s (.sendUserPrompt flow message predictLength computed :: es) = [] := by
  obtain ⟨t, ht, hrun⟩ := (Machine.run_cons_eq_some _).mp hr
  obtain ⟨seen, hs, -⟩ := step_move ht
  obtain ⟨hafter, rfl⟩ := sendUserPrompt_unfit hflows hmessage hstate hsync hle hne hkept hfull hs
  rw [emissions_of_silent hs (by simp)]
  rcases hafter with hstuck | hdoomed
  · exact (hstuck.run hrun).2.2
  · exact (run_silent (fun s e s' seen h hk hs => h.step hk hs) hdoomed (hkeeps.2 t ht) hrun).2

/-- The engine after a conversation of 7600 tokens. -/
def longEngine : Engine UInt8 :=
  { (Engine.created : Engine UInt8) with state := .modelReady, session := longSession }

/-- A message of 600 tokens. The shift comes with its second batch. -/
def longMessage : Text := List.replicate 600 0x61

theorem length_longMessage : (longEngine.session.promptTokens byteHost.model .user
    (byteHost.utfChars longMessage)).length = 600 :=
  (List.length_map ..).trans List.length_replicate

/-- A turn of its flow, and a second prompt. -/
def afterLongMessage : List (EngineEvent UInt8) :=
  [.readFlag, .generateNextToken 0x62 true, .sendUserPrompt 1 (utf16 "hi") 16 fun _ => true]

set_option maxRecDepth 20000 in
theorem run_afterLongMessage : ((engineMachine byteHost).run longEngine
    (.sendUserPrompt 0 longMessage 16 (fun _ => true) :: afterLongMessage)).isSome = true := by
  decide +kernel

theorem run_unfit_long :
    ∃ s', (engineMachine byteHost).run longEngine
        (.sendUserPrompt 0 longMessage 16 (fun _ => true) :: afterLongMessage) = some s' ∧
      emissions byteHost longEngine
        (.sendUserPrompt 0 longMessage 16 (fun _ => true) :: afterLongMessage) = [] := by
  have hstate : State.modelReady ≠ .generating := by simp
  have hflows : Flows longEngine := .none hstate rfl rfl
  have hmessage : longMessage ≠ [] := List.ne_nil_of_length_eq_add_one List.length_replicate
  have hkeeps : ∀ e ∈ EngineEvent.sendUserPrompt 0 longMessage 16 (fun _ => true) :: afterLongMessage,
      ∀ s : Engine UInt8, KeepsModel s e := by simp [afterLongMessage, KeepsModel]
  obtain ⟨s', hs'⟩ := Option.isSome_iff_exists.mp run_afterLongMessage
  refine ⟨s', hs', run_unfit hflows hmessage rfl inSync_longSession ?_ ?_ ?_ ?_
    (Machine.along_of_forall hkeeps) hs'⟩
  · rw [length_longMessage]
    simp [maxBatchSize, defaultContextSize, overflowHeadroom]
  · rw [← List.length_pos_iff, length_longMessage]
    omega
  · rw [length_longContext.2]
    omega
  · rw [length_longMessage, length_longContext.1]
    simp [maxBatchSize, defaultContextSize, overflowHeadroom]

/-! ## A reply -/

/-- What is sampled in the turns of a run. -/
def turns : List (EngineEvent Token) → List (Token × Bool)
  | [] => []
  | .generateNextToken newTokenId computed :: es => (newTokenId, computed) :: turns es
  | _ :: es => turns es

/-- The text that is about to be emitted. -/
def pending (s : Engine Token) : List (List UInt8) :=
  match s.running with
  | some (_, .emit utf8token) => [utf8token]
  | _ => []

theorem pending_of_free (h : s.running = none) : pending s = [] := by
  unfold pending
  rw [h]

/-- The engine is generating, and nobody has cancelled. -/
def Replies (s : Engine Token) (e : EngineEvent Token) : Prop :=
  s.state = .generating ∧ s.cancelGeneration = false ∧ e ≠ .destroy

/-- Without a flow on the dispatcher there is no turn. -/
theorem turns_of_free {es : List (EngineEvent Token)} (hfree : s.running = none)
    (h : engineStep host s e = some (s', seen)) : turns (e :: es) = turns es := by
  cases e with
  | generateNextToken newTokenId computed =>
    simp only [engineStep, hfree] at h
    cases h
  | _ => rfl

/-- After the last step of a reply there is no other step. -/
theorem nil_of_not_replies {es : List (EngineEvent Token)}
    (halong : (engineMachine host).Along Replies s es)
    (h : s.state ≠ .generating ∨ s.cancelGeneration = true) : es = [] := by
  cases es with
  | nil => rfl
  | cons e es =>
    obtain ⟨hstate, hcancel, -⟩ := halong.1
    rcases h with hne | hyes
    · exact absurd hstate hne
    · rw [hcancel] at hyes
      cases hyes

/-- One step of a reply emits a part of what is still to come. -/
theorem emission_of_replies {es : List (EngineEvent Token)} (hreplies : Replies s e)
    (hs : engineStep host s e = some (s', seen)) (hmove : Move host s e s' seen)
    (hrest : (engineMachine host).Along Replies s' es) :
    (emission host s e).toList ++
        (pending s' ++ (generate host.model s'.session (turns es)).1.filter (· ≠ [])) =
      pending s ++ (generate host.model s.session (turns (e :: es))).1.filter (· ≠ []) := by
  obtain ⟨hstate, hcancel, hdestroy⟩ := hreplies
  rw [emission_eq hs]
  cases hmove with
  | rejected _ _ _ hfree =>
    rw [turns_of_free hfree hs]
    rfl
  | resumed _ hfree =>
    rw [turns_of_free hfree hs, pending_of_free hfree]
    rfl
  | goesOn _ hflow =>
    simp only [pending, hflow]
    rfl
  | heldBack _ newTokenId computed session hflow hsession =>
    show _ = _ ++ (generate host.model s.session ((newTokenId, computed) :: turns es)).1.filter _
    rw [generate_of_some hsession]
    simp [pending, hflow, Seen.text]
  | generated _ newTokenId computed session utf8token hflow hne hsession =>
    show _ = _ ++ (generate host.model s.session ((newTokenId, computed) :: turns es)).1.filter _
    rw [generate_of_some hsession, List.filter_cons_of_pos (by simpa using hne)]
    simp [pending, hflow, Seen.text]
  | emitted _ utf8token hflow =>
    simp only [pending, hflow]
    rfl
  | ended _ newTokenId computed session hflow hsession =>
    have hnil := nil_of_not_replies hrest (Or.inl (by simp))
    subst hnil
    show _ = _ ++ (generate host.model s.session [(newTokenId, computed)]).1.filter _
    rw [generate_of_none hsession]
    simp only [pending, hflow]
    rfl
  | flowCancelled _ hfree =>
    have hnil := nil_of_not_replies hrest (Or.inl (by simp))
    subst hnil
    rw [turns_of_free hfree hs]
    rfl
  | cleanUpRequested | destroyRequested =>
    have hnil := nil_of_not_replies hrest (Or.inr rfl)
    subst hnil
    rfl
  | aborted _ _ hyes =>
    rw [hcancel] at hyes
    cases hyes
  | destroyedIdle | destroyed => exact absurd rfl hdestroy
  | libraryLoaded _ h | libraryMissing _ h | fileRejected _ h | loadFailed _ h
  | prepareFailed _ h | loaded _ h | systemPrompted _ _ _ _ h | systemPromptFailed _ _ _ _ h
  | prompted _ _ _ _ _ _ h | promptRefused _ _ _ _ _ _ _ h | benched _ h | unloaded _ h
  | errorReset _ h =>
    rw [hstate] at h
    cases h

/--
**A reply is the session's, whatever is called meanwhile.** Loads, prompts, benchmarks and clean-ups
that are tried while a reply is generated change nothing of it: the texts that are emitted, and the
one that is about to be, are those that the sampled tokens give, without the empty ones.
-/
theorem run_reply {es : List (EngineEvent Token)} (hflows : Flows s)
    (halong : (engineMachine host).Along Replies s es)
    (hr : (engineMachine host).run s es = some s') :
    emissions host s es ++ pending s' =
      pending s ++ (generate host.model s.session (turns es)).1.filter (· ≠ []) := by
  induction es generalizing s with
  | nil =>
    rw [Machine.run_nil, Option.some.injEq] at hr
    rw [hr]
    exact (List.append_nil _).symm
  | cons e es ih =>
    obtain ⟨t, ht, hrun⟩ := (Machine.run_cons_eq_some _).mp hr
    obtain ⟨seen, hs, hmove⟩ := step_move ht
    have hrest := halong.2 t ht
    rw [emissions_cons hs, List.append_assoc, ih (hmove.flows hflows) hrest hrun,
      emission_of_replies halong.1 hs hmove hrest]

/-- A flow that has just been started. -/
def replyingEngine : Engine UInt8 :=
  { (Engine.created : Engine UInt8) with
    state := .generating
    running := some (0, .test)
    session := { (Session.prepared : Session UInt8) with stopGenerationPosition := 16 } }

/-- Two turns, and a prompt and a load that are thrown back between them. -/
def twoTurns : List (EngineEvent UInt8) :=
  [.readFlag, .generateNextToken 0x61 true, .emit, .sendUserPrompt 1 (utf16 "hi") 16 fun _ => true,
    .loadModel .loaded, .resume 0, .readFlag, .generateNextToken 0x62 true, .emit]

theorem run_reply_twoTurns :
    ∃ s', (engineMachine byteHost).run replyingEngine twoTurns = some s' ∧
      emissions byteHost replyingEngine twoTurns ++ pending s' =
        pending replyingEngine ++
          (generate byteModel replyingEngine.session (turns twoTurns)).1.filter (· ≠ []) := by
  have hflows : Flows replyingEngine := .running 0 .test rfl rfl rfl
  have hstate : (engineMachine byteHost).Along (fun s _ => s.state = .generating) replyingEngine
      twoTurns := by decide +kernel
  have hflag : (engineMachine byteHost).Along (fun s _ => s.cancelGeneration = false)
      replyingEngine twoTurns := by decide +kernel
  have hdestroy : (engineMachine byteHost).Along (fun _ e => e ≠ .destroy) replyingEngine twoTurns :=
    Machine.along_of_forall (by simp [twoTurns])
  have hend : ((engineMachine byteHost).run replyingEngine twoTurns).isSome = true := by
    decide +kernel
  obtain ⟨s', hs'⟩ := Option.isSome_iff_exists.mp hend
  exact ⟨s', hs', run_reply hflows (Machine.along_and hstate (Machine.along_and hflag hdestroy)) hs'⟩

end Kaede.AiChat
