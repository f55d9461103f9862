import Kaede.Properties.EngineMoves
import Kaede.Properties.ContextLayout

/-!
# What the engine does with models and contexts

As long as `destroy` is not called, nothing is used or freed that is not live. A failed `prepare` or
a failed system prompt leaves a model behind that nothing frees any more, since `cleanUp` only resets
the state then.

* `run_sound` — no use after a free, no double free, no use of null
* `run_ledger` — the live models are the one that is loaded and one for each failure
-/

namespace Kaede.AiChat

open Infra

variable {Token : Type*} {host : Host Token}

/-! ## The native globals -/

namespace Resources

variable {r : Resources} {a b : Nat}

/-- `g_model` and `g_context` are live. -/
structure Held (r : Resources) (a b : Nat) : Prop where
  gModel : r.gModel = some a
  gContext : r.gContext = some b
  model : a ∈ r.liveModels
  context : b ∈ r.liveContexts

/-- The numbers of live models and contexts have been given out, each once. -/
structure Fresh (r : Resources) : Prop where
  models : ∀ n ∈ r.liveModels, n < r.next
  contexts : ∀ n ∈ r.liveContexts, n < r.next
  nodupModels : r.liveModels.Nodup
  nodupContexts : r.liveContexts.Nodup

theorem touch_of_mem {live : List Nat} {n : Nat} (h : n ∈ live) : r.touch live (some n) = r := by
  unfold touch
  simp [h]

theorem useModel_of_held (h : Held r a b) : r.useModel = r := by
  unfold useModel
  rw [h.gModel]
  exact touch_of_mem h.model

theorem useContext_of_held (h : Held r a b) : r.useContext = r := by
  unfold useContext
  rw [h.gContext]
  exact touch_of_mem h.context

/-- A model that was just loaded is live. -/
theorem useModel_load (r : Resources) : r.load.useModel = r.load :=
  touch_of_mem (List.mem_cons_self ..)

theorem load_fresh (h : Fresh r) : Fresh r.load where
  models n hn := by
    rcases List.mem_cons.mp hn with rfl | hn
    · exact Nat.lt_succ_self _
    · exact Nat.lt_succ_of_lt (h.models n hn)
  contexts n hn := Nat.lt_succ_of_lt (h.contexts n hn)
  nodupModels := List.nodup_cons.mpr ⟨fun hmem => Nat.lt_irrefl _ (h.models _ hmem), h.nodupModels⟩
  nodupContexts := h.nodupContexts

theorem prepare_load (r : Resources) : r.load.prepare =
    { r.load with
      gContext := some r.load.next
      liveContexts := r.load.next :: r.liveContexts
      next := r.load.next + 1 } := by
  unfold prepare
  rw [useModel_load]
  rfl

theorem liveModels_prepare_load (r : Resources) :
    r.load.prepare.liveModels = r.next :: r.liveModels := by
  rw [prepare_load]
  rfl

theorem liveContexts_prepare_load (r : Resources) :
    r.load.prepare.liveContexts = r.load.next :: r.liveContexts := by rw [prepare_load]

theorem prepare_load_fresh (h : Fresh r) : Fresh r.load.prepare := by
  have hload := load_fresh h
  rw [prepare_load]
  refine ⟨fun n hn => Nat.lt_succ_of_lt (hload.models n hn), fun n hn => ?_, hload.nodupModels, ?_⟩
  · rcases List.mem_cons.mp hn with rfl | hn
    · exact Nat.lt_succ_self _
    · exact Nat.lt_succ_of_lt (hload.contexts n hn)
  · exact List.nodup_cons.mpr ⟨fun hmem => Nat.lt_irrefl _ (hload.contexts _ hmem),
      h.nodupContexts⟩

theorem prepare_load_held (r : Resources) : Held r.load.prepare r.next r.load.next := by
  rw [prepare_load]
  exact ⟨rfl, rfl, List.mem_cons_self .., List.mem_cons_self ..⟩

/-- Unloading what is held frees it, and faults in nothing. -/
theorem unload_of_held (h : Held r a b) : r.unload =
    { r with
      liveModels := r.liveModels.filter fun n => n ≠ a
      liveContexts := r.liveContexts.filter fun n => n ≠ b } := by
  unfold unload freeContext
  simp only []
  rw [useContext_of_held h, useContext_of_held h]
  have hmodel : ({ r with liveContexts := r.liveContexts.filter fun n => some n ≠ r.gContext } :
      Resources).useModel =
      { r with liveContexts := r.liveContexts.filter fun n => some n ≠ r.gContext } := by
    unfold useModel
    rw [h.gModel]
    exact touch_of_mem h.model
  unfold freeModel
  simp only []
  rw [hmodel]
  simp [h.gModel, h.gContext]

theorem length_filter_ne {l : List Nat} (hnodup : l.Nodup) (hmem : a ∈ l) :
    (l.filter fun n => decide (n ≠ a)).length + 1 = l.length := by
  have herase : l.erase a = l.filter fun n => decide (n ≠ a) := by
    rw [hnodup.erase_eq_filter]
    simp [bne, beq_eq_decide]
  rw [← herase, List.length_erase_of_mem hmem]
  have := List.length_pos_of_mem hmem
  omega

theorem unload_fresh (h : Held r a b) (hfresh : Fresh r) : Fresh r.unload := by
  rw [unload_of_held h]
  exact ⟨fun n hn => hfresh.models n (List.mem_of_mem_filter hn),
    fun n hn => hfresh.contexts n (List.mem_of_mem_filter hn),
    hfresh.nodupModels.filter _, hfresh.nodupContexts.filter _⟩

end Resources

/-! ## Soundness -/

open Resources

/-- No fault so far, and what the state promises is held. -/
structure Sound (s : Engine Token) : Prop where
  flows : Flows s
  faults : s.resources.faults = 0
  fresh : s.resources.Fresh
  held : s.state.isModelLoaded = true → ∃ a b, s.resources.Held a b

variable {s s' : Engine Token} {e : EngineEvent Token} {seen : Seen}

theorem sound_created : Sound (Engine.created : Engine Token) where
  flows := flows_created
  faults := rfl
  fresh := ⟨by simp [Engine.created, Resources.empty], by simp [Engine.created, Resources.empty],
    List.nodup_nil, List.nodup_nil⟩
  held h := by simp [Engine.created, State.isModelLoaded] at h

/-- While the state promises a model, uses of it change nothing. -/
theorem Sound.uses (h : Sound s) (hloaded : s.state.isModelLoaded = true) :
    s.resources.useContext = s.resources ∧ s.resources.useModel = s.resources := by
  obtain ⟨a, b, hheld⟩ := h.held hloaded
  exact ⟨useContext_of_held hheld, useModel_of_held hheld⟩

/-- What changes neither the globals nor the promise of the state. -/
theorem Sound.congr (h : Sound s) (hflows : Flows s') (hresources : s'.resources = s.resources)
    (hstate : s'.state.isModelLoaded = true → s.state.isModelLoaded = true) : Sound s' := by
  refine ⟨hflows, ?_, ?_, fun hloaded => ?_⟩
  · rw [hresources]
    exact h.faults
  · rw [hresources]
    exact h.fresh
  · rw [hresources]
    exact h.held (hstate hloaded)

theorem isModelLoaded_of_eq {st : State} (h : s.state = st) (hst : st.isModelLoaded = true) :
    s.state.isModelLoaded = true := by rw [h]; exact hst

theorem Move.sound (hmove : Move host s e s' seen) (h : Sound s) (hdestroy : e ≠ .destroy) :
    Sound s' := by
  have hflows := hmove.flows h.flows
  cases hmove with
  | rejected => exact h.congr hflows rfl id
  | libraryLoaded | libraryMissing | fileRejected | loadFailed | errorReset =>
    exact h.congr hflows rfl (by simp [State.isModelLoaded])
  | prepareFailed =>
    refine ⟨hflows, ?_, ?_, by simp [State.isModelLoaded]⟩
    · simp only [useModel_load]
      exact h.faults
    · simp only [useModel_load]
      exact load_fresh h.fresh
  | loaded =>
    refine ⟨hflows, ?_, prepare_load_fresh h.fresh, fun _ => ⟨_, _, prepare_load_held _⟩⟩
    simp only [prepare_load]
    exact h.faults
  | systemPrompted _ _ _ _ hstate | prompted _ _ _ _ _ _ hstate =>
    have hloaded := isModelLoaded_of_eq hstate rfl
    exact h.congr hflows (h.uses hloaded).1 fun _ => hloaded
  | systemPromptFailed _ _ _ _ hstate | promptRefused _ _ _ _ _ _ _ hstate =>
    have hloaded := isModelLoaded_of_eq hstate rfl
    exact h.congr hflows (h.uses hloaded).1 fun _ => hloaded
  | aborted flow hflow | goesOn flow hflow | emitted flow _ hflow =>
    have hloaded := isModelLoaded_of_eq (h.flows.of_running hflow).1 rfl
    exact h.congr hflows rfl fun _ => hloaded
  | ended flow _ _ _ hflow | heldBack flow _ _ _ hflow | generated flow _ _ _ _ hflow =>
    have hloaded := isModelLoaded_of_eq (h.flows.of_running hflow).1 rfl
    exact h.congr hflows (h.uses hloaded).1 fun _ => hloaded
  | resumed | cleanUpRequested | destroyRequested => exact h.congr hflows rfl id
  | flowCancelled flow _ hflow =>
    have hloaded := isModelLoaded_of_eq (h.flows.of_mem hflow).1 rfl
    exact h.congr hflows rfl fun _ => hloaded
  | benched _ hstate =>
    have hloaded := isModelLoaded_of_eq hstate rfl
    exact h.congr hflows (h.uses hloaded).2 fun _ => hloaded
  | unloaded _ hstate =>
    obtain ⟨a, b, hheld⟩ := h.held (isModelLoaded_of_eq hstate rfl)
    refine ⟨hflows, ?_, unload_fresh hheld h.fresh, by simp [State.isModelLoaded]⟩
    simp only [unload_of_held hheld]
    exact h.faults
  | destroyedIdle | destroyed => exact absurd rfl hdestroy

/--
**Nothing is used or freed that is not live.** This holds over every interleaving of loads, prompts,
flows, benchmarks and clean-ups, as long as the engine is not destroyed.
-/
theorem run_sound {es : List (EngineEvent Token)} (hdestroy : ∀ e ∈ es, e ≠ .destroy)
    (hr : (engineMachine host).run .created es = some s) : Sound s := by
  refine Machine.run_invariant_along ?_ ((Machine.along_const_iff hr).mpr hdestroy) sound_created hr
  intro s e t hsound hne hstep
  obtain ⟨seen, -, hmove⟩ := step_move hstep
  exact hmove.sound hsound hne

/-- The model whose tokens are bytes, with a text as the low bytes of its units. -/
def byteHost : Host UInt8 where
  model := byteModel
  utfChars text := text.map (·.toUInt8)

/-- A model is loaded and unloaded. -/
theorem run_sound_unload :
    ∃ s, (engineMachine byteHost).run .created
        [.init true, .loadModel .loaded, .requestCleanUp, .cleanUp] = some s ∧ Sound s := by
  refine ⟨_, rfl, ?_⟩
  have hr : (engineMachine byteHost).run .created
      [.init true, .loadModel .loaded, .requestCleanUp, .cleanUp] = some _ := rfl
  exact run_sound (by simp) hr

/-! ## The ledger -/

/-- Whether a step that fails does so after `load`. -/
def EngineEvent.afterLoad : EngineEvent Token → Bool
  | .loadModel .fileRejected | .loadModel .loadFailed => false
  | _ => true

/-- Whether a step that fails does so after `prepare`. -/
def EngineEvent.afterPrepare : EngineEvent Token → Bool
  | .loadModel _ => false
  | _ => true

/-- The step enters `Error`, and it is one of those that `late` selects. -/
def failsLate (host : Host Token) (late : EngineEvent Token → Bool) (s : Engine Token)
    (e : EngineEvent Token) : Option Unit :=
  match engineStep host s e with
  | some (s', _) => if s.state ≠ .error ∧ s'.state = .error ∧ late e = true then some () else none
  | none => none

/-- How many steps of a run fail late. -/
def lateFailures (host : Host Token) (late : EngineEvent Token → Bool) (s : Engine Token)
    (es : List (EngineEvent Token)) : Nat :=
  ((engineMachine host).outputs (failsLate host late) s es).length

/-- 1 while the state promises a model. -/
def heldCount (s : Engine Token) : Nat := if s.state.isModelLoaded = true then 1 else 0

theorem failsLate_eq {late : EngineEvent Token → Bool} (h : engineStep host s e = some (s', seen)) :
    (failsLate host late s e).toList.length =
      if s.state ≠ .error ∧ s'.state = .error ∧ late e = true then 1 else 0 := by
  unfold failsLate
  rw [h]
  simp only []
  split <;> rfl

/-- A step that keeps the state does not fail. -/
theorem no_failure {st : State} {late : Bool} :
    (if st ≠ .error ∧ st = .error ∧ late = true then 1 else 0) = 0 := if_neg fun h => h.1 h.2.1

/-- What one step adds to the live models and contexts. -/
theorem Move.ledger (hmove : Move host s e s' seen) (hstep : engineStep host s e = some (s', seen))
    (h : Sound s) (hdestroy : e ≠ .destroy) :
    s'.resources.liveModels.length + heldCount s =
        s.resources.liveModels.length + heldCount s' +
          (failsLate host EngineEvent.afterLoad s e).toList.length ∧
      s'.resources.liveContexts.length + heldCount s =
        s.resources.liveContexts.length + heldCount s' +
          (failsLate host EngineEvent.afterPrepare s e).toList.length := by
  rw [failsLate_eq hstep, failsLate_eq hstep]
  cases hmove with
  | rejected =>
    rw [no_failure, no_failure]
    exact ⟨rfl, rfl⟩
  | libraryLoaded _ hstate | libraryMissing _ hstate =>
    simp [heldCount, hstate, State.isModelLoaded]
  | fileRejected _ hstate | loadFailed _ hstate =>
    simp [heldCount, hstate, State.isModelLoaded, EngineEvent.afterLoad, EngineEvent.afterPrepare]
  | prepareFailed _ hstate =>
    simp only [useModel_load]
    simp [heldCount, hstate, State.isModelLoaded, EngineEvent.afterLoad, EngineEvent.afterPrepare,
      Resources.load]
  | loaded _ hstate =>
    simp only [liveModels_prepare_load, liveContexts_prepare_load]
    simp [heldCount, hstate, State.isModelLoaded]
  | systemPrompted _ _ _ _ hstate | prompted _ _ _ _ _ _ hstate
  | promptRefused _ _ _ _ _ _ _ hstate =>
    have huses := h.uses (isModelLoaded_of_eq hstate rfl)
    simp [heldCount, hstate, State.isModelLoaded, huses.1]
  | systemPromptFailed _ _ _ _ hstate =>
    have huses := h.uses (isModelLoaded_of_eq hstate rfl)
    simp [heldCount, hstate, State.isModelLoaded, huses.1, EngineEvent.afterLoad,
      EngineEvent.afterPrepare]
  | aborted flow hflow | goesOn flow hflow | emitted flow _ hflow =>
    simp [heldCount, (h.flows.of_running hflow).1, State.isModelLoaded]
  | ended flow _ _ _ hflow | heldBack flow _ _ _ hflow | generated flow _ _ _ _ hflow =>
    have hstate := (h.flows.of_running hflow).1
    have huses := h.uses (isModelLoaded_of_eq hstate rfl)
    simp [heldCount, hstate, State.isModelLoaded, huses.1]
  | resumed | cleanUpRequested | destroyRequested =>
    rw [no_failure, no_failure]
    exact ⟨rfl, rfl⟩
  | flowCancelled flow _ hflow =>
    simp [heldCount, (h.flows.of_mem hflow).1, State.isModelLoaded]
  | benched _ hstate =>
    have huses := h.uses (isModelLoaded_of_eq hstate rfl)
    simp [heldCount, hstate, State.isModelLoaded, huses.2]
  | unloaded _ hstate =>
    obtain ⟨a, b, hheld⟩ := h.held (isModelLoaded_of_eq hstate rfl)
    have hmodels := length_filter_ne h.fresh.nodupModels hheld.model
    have hcontexts := length_filter_ne h.fresh.nodupContexts hheld.context
    simp only [ne_eq, decide_not] at hmodels hcontexts
    simp [heldCount, hstate, State.isModelLoaded, unload_of_held hheld]
    omega
  | errorReset _ hstate => simp [heldCount, hstate, State.isModelLoaded]
  | destroyedIdle | destroyed => exact absurd rfl hdestroy

/-- The ledger of a run from a sound engine. -/
theorem run_ledger_from {es : List (EngineEvent Token)} (hdestroy : ∀ e ∈ es, e ≠ .destroy)
    (h : Sound s) (hr : (engineMachine host).run s es = some s') :
    s'.resources.liveModels.length + heldCount s =
        s.resources.liveModels.length + heldCount s' +
          lateFailures host EngineEvent.afterLoad s es ∧
      s'.resources.liveContexts.length + heldCount s =
        s.resources.liveContexts.length + heldCount s' +
          lateFailures host EngineEvent.afterPrepare s es := by
  induction es generalizing s with
  | nil =>
    rw [Machine.run_nil, Option.some.injEq] at hr
    rw [hr]
    exact ⟨rfl, rfl⟩
  | cons e es ih =>
    obtain ⟨hne, hrest⟩ := List.forall_mem_cons.mp hdestroy
    obtain ⟨t, ht, hrun⟩ := (Machine.run_cons_eq_some _).mp hr
    obtain ⟨seen, hstep, hmove⟩ := step_move ht
    obtain ⟨hmodels, hcontexts⟩ := hmove.ledger hstep h hne
    obtain ⟨hmodels', hcontexts'⟩ := ih hrest (hmove.sound h hne) hrun
    unfold lateFailures at hmodels' hcontexts' ⊢
    rw [Machine.outputs_cons_of_step ht, Machine.outputs_cons_of_step ht, List.length_append,
      List.length_append]
    omega

/--
**The ledger.** The live models are the one that the state promises, and one for every load whose
`prepare` failed and every system prompt that failed: these are never freed. The same holds of the
contexts and the system prompts that failed.
-/
theorem run_ledger {es : List (EngineEvent Token)} (hdestroy : ∀ e ∈ es, e ≠ .destroy)
    (hr : (engineMachine host).run .created es = some s) :
    s.resources.liveModels.length =
        heldCount s + lateFailures host EngineEvent.afterLoad .created es ∧
      s.resources.liveContexts.length =
        heldCount s + lateFailures host EngineEvent.afterPrepare .created es := by
  obtain ⟨hmodels, hcontexts⟩ := run_ledger_from hdestroy sound_created hr
  have hzero : heldCount (Engine.created : Engine Token) = 0 := rfl
  have hnoModels : (Engine.created : Engine Token).resources.liveModels = [] := rfl
  have hnoContexts : (Engine.created : Engine Token).resources.liveContexts = [] := rfl
  rw [hzero, hnoModels, List.length_nil] at hmodels
  rw [hzero, hnoContexts, List.length_nil] at hcontexts
  omega

/-- A load whose `prepare` fails, a clean-up, and a load that succeeds: two models are live. -/
theorem run_ledger_twice :
    ∃ s, (engineMachine byteHost).run .created [.init true, .loadModel .prepareFailed,
        .requestCleanUp, .cleanUp, .loadModel .loaded] = some s ∧
      s.resources.liveModels.length = 2 := by
  refine ⟨_, rfl, ?_⟩
  have hr : (engineMachine byteHost).run .created [.init true, .loadModel .prepareFailed,
      .requestCleanUp, .cleanUp, .loadModel .loaded] = some _ := rfl
  exact (run_ledger (by simp) hr).1

end Kaede.AiChat
