import Kaede.Ai.MlcLlm

/-!
# Loading the model from `ChatViewModel`

`initializeMlcLlm` launches a coroutine that loads the model and then collects `loadProgress`
forever. `retryModelLoad` launches one more. All of them share one engine, so they share its
`loadProgress`.

A load writes its progress from another thread, one write a step. When it has returned, its
coroutine starts to collect in the same step. A collector sees the current value first. Later it
is resumed only when the value is another than the one it saw last, so it may skip values.
-/

namespace Kaede

/-! ## State -/

/-- `ModelLoadState`. Progress is in percent. -/
inductive ModelLoadState where
  | idle
  | loading (progress : Nat) (status : Text)
  | success (modelInfo : ModelInfo)
  | error (error : Text) (recoverable : Bool)
deriving DecidableEq, Repr

/-- `is ModelLoadState.Success`, which is also `isReady()`. -/
def ModelLoadState.isReady : ModelLoadState → Bool
  | .success _ => true
  | _ => false

inductive LoadStage where
  | running
  | collecting (lastSeen : Nat)
deriving DecidableEq, Repr

/-- One coroutine that `initializeMlcLlm` launched. -/
structure ModelLoad where
  /-- What `loadModelFromAssets` has still to write to `loadProgress`. -/
  pending : List Nat
  /-- How `loadModelFromAssets` ends. -/
  outcome : Except Infra.Throwable ModelInfo
  stage : LoadStage

structure ModelLoader where
  isNativeLoaded : Bool
  modelState : ModelLoadState
  loadProgress : Nat
  /-- In the order in which they were launched. -/
  loads : List ModelLoad

/-- What a step of a load does besides changing the loader. -/
inductive LoadEffect where
  | silent
  /-- The collector of this load adds the "ready" message. -/
  | ready (load : Nat)
  /-- A throwable leaves the coroutine. Nothing catches it. -/
  | crash
deriving DecidableEq, Repr

inductive LoadEvent where
  /-- `retryModelLoad()`, with what the new load will find. -/
  | retry (native : NativeLayer) (storage : Storage)
  /-- The load at this place writes its next progress. -/
  | wrote (load : Nat)
  /-- `loadModelFromAssets` returns to the coroutine at this place. -/
  | returned (load : Nat)
  /-- The collector at this place is resumed. -/
  | collected (load : Nat)

namespace ModelLoader

/-! ## Starting a load -/

/-- The load that finds the given native layer and storage. It runs on its own, so what it writes
and how it ends is fixed when it starts. -/
def modelLoad (isNativeLoaded : Bool) (native : NativeLayer) (storage : Storage) : ModelLoad :=
  let engine := { MlcLlm.fields with isNativeLoaded := isNativeLoaded, loadProgress := [] }
  let (outcome, engine) :=
    MlcLlm.loadModelFromAssets native storage (utf16 "gemma-2b-it-q4f16_1-MLC") {} engine
  { pending := engine.loadProgress, outcome := outcome, stage := .running }

def initializeMlcLlm (native : NativeLayer) (storage : Storage) (loader : ModelLoader) :
    ModelLoader :=
  { loader with loads := loader.loads ++ [modelLoad loader.isNativeLoaded native storage] }

def retryModelLoad (native : NativeLayer) (storage : Storage) (loader : ModelLoader) :
    ModelLoader :=
  { loader with modelState := .idle }.initializeMlcLlm native storage

/-- The loader of a new view model. -/
def init (isNativeLoaded : Bool) (native : NativeLayer) (storage : Storage) : ModelLoader :=
  initializeMlcLlm native storage
    { isNativeLoaded := isNativeLoaded, modelState := .idle, loadProgress := 0, loads := [] }

/-! ## Collecting the progress -/

/-- The `ModelInfo` that the collector puts into `Success`. -/
def collectorInfo : ModelInfo :=
  { name := utf16 "gemma-2b-it-q4f16_1-MLC", path := utf16 "cache", sizeBytes := 0, version := 3,
    tensorCount := 0, metadataCount := 0, contextSize := 2048,
    parameters := utf16 "MLC-LLM Gemma-2B" }

/-- The status line while loading. -/
def loadingStatus (progress : Nat) : Text :=
  utf16 "Loading MLC model... " ++ utf16 (toString progress) ++ utf16 "%"

/-- The body of `collect` on a value, in the coroutine at place `j`. -/
def onProgress (j progress : Nat) (modelState : ModelLoadState) : ModelLoadState × LoadEffect :=
  if 100 ≤ progress then (.success collectorInfo, .ready j)
  else if 0 < progress then (.loading progress (loadingStatus progress), .silent)
  else (modelState, .silent)

/-- The collector at place `j` sees the current value. -/
def collect (j : Nat) (load : ModelLoad) (loader : ModelLoader) : ModelLoader × LoadEffect :=
  let (modelState, effect) := onProgress j loader.loadProgress loader.modelState
  ({ loader with
      modelState := modelState
      loads := loader.loads.set j { load with stage := .collecting loader.loadProgress } }, effect)

/-! ## Steps -/

def step (loader : ModelLoader) : LoadEvent → Option (ModelLoader × LoadEffect)
  | .retry native storage => some (loader.retryModelLoad native storage, .silent)
  | .wrote j =>
    match loader.loads[j]? with
    | some ⟨progress :: pending, outcome, .running⟩ =>
      some ({ loader with
        loadProgress := progress
        loads := loader.loads.set j ⟨pending, outcome, .running⟩ }, .silent)
    | _ => none
  | .returned j =>
    match loader.loads[j]? with
    | some ⟨[], .ok info, .running⟩ => some (loader.collect j ⟨[], .ok info, .running⟩)
    | some ⟨[], .error _, .running⟩ => some (loader, .crash)
    | _ => none
  | .collected j =>
    match loader.loads[j]? with
    | some ⟨pending, outcome, .collecting lastSeen⟩ =>
      if lastSeen = loader.loadProgress then none
      else some (loader.collect j ⟨pending, outcome, .collecting lastSeen⟩)
    | _ => none

/-- What a step of the loader can do. -/
inductive Transition (loader : ModelLoader) : LoadEvent → ModelLoader → LoadEffect → Prop where
  | retry (native : NativeLayer) (storage : Storage) :
    Transition loader (.retry native storage) (loader.retryModelLoad native storage) .silent
  | wrote (j progress : Nat) (pending : List Nat) (outcome : Except Infra.Throwable ModelInfo)
    (hj : loader.loads[j]? = some ⟨progress :: pending, outcome, .running⟩) :
    Transition loader (.wrote j)
      { loader with
        loadProgress := progress
        loads := loader.loads.set j ⟨pending, outcome, .running⟩ } .silent
  | returned (j : Nat) (info : ModelInfo)
    (hj : loader.loads[j]? = some ⟨[], .ok info, .running⟩) :
    Transition loader (.returned j) (loader.collect j ⟨[], .ok info, .running⟩).1
      (loader.collect j ⟨[], .ok info, .running⟩).2
  | crashed (j : Nat) (t : Infra.Throwable)
    (hj : loader.loads[j]? = some ⟨[], .error t, .running⟩) :
    Transition loader (.returned j) loader .crash
  | collected (j : Nat) (load : ModelLoad) (lastSeen : Nat) (hj : loader.loads[j]? = some load)
    (hstage : load.stage = .collecting lastSeen) (hnew : lastSeen ≠ loader.loadProgress) :
    Transition loader (.collected j) (loader.collect j load).1 (loader.collect j load).2

theorem transition_of_step {loader next : ModelLoader} {event : LoadEvent} {effect : LoadEffect}
    (h : loader.step event = some (next, effect)) : Transition loader event next effect := by
  unfold step at h
  cases event with
  | retry native storage =>
    cases h
    exact .retry native storage
  | wrote j =>
    dsimp only at h
    split at h
    · next progress pending outcome hj =>
      cases h
      exact .wrote j progress pending outcome hj
    · cases h
  | returned j =>
    dsimp only at h
    split at h
    · next info hj =>
      cases h
      exact .returned j info hj
    · next t hj =>
      cases h
      exact .crashed j t hj
    · cases h
  | collected j =>
    dsimp only at h
    split at h
    · next pending outcome lastSeen hj =>
      split at h
      · cases h
      · next hnew =>
        cases h
        exact .collected j _ lastSeen hj rfl hnew
    · cases h

end ModelLoader

end Kaede
