import Kaede.Ai.SmartStub
import Kaede.Infra.Jvm
import Mathlib.Data.Rat.Cast.Defs

/-!
# `MlcLlm`

Loading the library, loading the model, and generating. The native layer and the storage are
parameters: each call is given by what it does when it is made.

Load progress is kept in percent (the source's `0.2f` is `20`). `loadProgress` holds every value
that the flow has been given, the current one last. Token rates are exact rationals. Token counts are
32-bit numbers, and their additions wrap.
-/

namespace Kaede

open Infra

/-! ## Data -/

structure GenerationParams where
  maxTokens : Int := 256
  temperature : Rat := 8 / 10
  topP : Rat := 95 / 100
  repetitionPenalty : Rat := 1
  contextSize : Int := 2048
deriving DecidableEq, Repr

structure GenerationResult where
  text : Text
  tokenCount : Int32
  generationTimeMs : Int
  tokensPerSecond : Rat
deriving DecidableEq, Repr

structure ModelInfo where
  name : Text
  path : Text
  sizeBytes : Int
  version : Int
  tensorCount : Int
  metadataCount : Int
  contextSize : Int
  parameters : Text
deriving DecidableEq, Repr

/-! ## The environment -/

/-- The path of a directory from the root. -/
structure AbsolutePath where
  path : Text
  startsAtRoot : path.head? = some 0x2F
deriving DecidableEq, Repr

/-- `File(parent, name).absolutePath`. -/
def AbsolutePath.child (parent : AbsolutePath) (name : Text) : AbsolutePath where
  path := parent.path ++ utf16 "/" ++ name
  startsAtRoot := by
    have h := parent.startsAtRoot
    cases hp : parent.path with
    | nil => rw [hp] at h; cases h
    | cons c cs => rw [hp] at h; exact h

theorem AbsolutePath.ne_of_head? {text : Text} (dir : AbsolutePath) (h : text.head? ≠ some 0x2F) :
    dir.path ≠ text := by
  rintro rfl
  exact h dir.startsAtRoot

/-- What `copyModelToCache` leaves in the cache. -/
structure CachedModel where
  dirExists : Bool
  sizeBytes : Int
deriving DecidableEq, Repr

/-- The files of the device. `none` is an `Exception` of the file system. -/
structure Storage where
  cacheDir : AbsolutePath
  /-- `assetManager.list("")`, which may also return `null`. -/
  assetList : Option (Option (List Text))
  cachedModel : Option CachedModel
deriving DecidableEq, Repr

/-- One run of `nativeGenerate`: the tokens it hands to the callback, and then how it ends. -/
structure NativeGeneration where
  tokens : List Text
  outcome : Except Throwable Unit

/-- The native layer. A missing library or method is an `UnsatisfiedLinkError`, which is an
`error`. -/
structure NativeLayer where
  loadLibrary : Except Throwable Unit
  nativeInit : Except Throwable Bool
  nativeLoadModel : Text → Int → Except Throwable Bool
  nativeGenerate : Text → GenerationParams → NativeGeneration

/-- A call that may throw an `Exception`. -/
def fileCall {σ α : Type} (outcome : Option α) : Jvm σ α :=
  Jvm.call (outcome.elim (.error .exception) .ok)

/-! ## The engine -/

structure MlcLlm where
  isNativeLoaded : Bool
  isModelLoaded : Bool
  loadProgress : List Nat
  totalTokensGenerated : Int32
  lastGenerationTokens : Int32
  lastTokensPerSecond : Rat
deriving DecidableEq, Repr

namespace MlcLlm

/-- The fields before the `init` block runs. -/
def fields : MlcLlm :=
  { isNativeLoaded := false, isModelLoaded := false, loadProgress := [0],
    totalTokensGenerated := 0, lastGenerationTokens := 0, lastTokensPerSecond := 0 }

/-- The `init` block. -/
def initBlock (native : NativeLayer) : Jvm MlcLlm Unit :=
  Jvm.tryCatch
    (do
      Jvm.call native.loadLibrary
      Jvm.modify fun m => { m with isNativeLoaded := true })
    (Jvm.modify fun m => { m with isNativeLoaded := false })

def setLoadProgress (percent : Nat) : Jvm MlcLlm Unit :=
  Jvm.modify fun m => { m with loadProgress := m.loadProgress ++ [percent] }

def setModelLoaded : Jvm MlcLlm Unit := Jvm.modify fun m => { m with isModelLoaded := true }

/-! ## Loading the model -/

def defaultModel : Text := utf16 "gemma-2b-it-q4f16_1-MLC"

/-- The `ModelInfo` of a load that falls back to the stub. -/
def stubInfo (modelAssetName : Text) (params : GenerationParams) (parameters : Text) : ModelInfo :=
  { name := modelAssetName, path := utf16 "stub", sizeBytes := 0, version := 3, tensorCount := 0,
    metadataCount := 0, contextSize := params.contextSize, parameters := parameters }

/-- The inner `try` block around `nativeInit` and `nativeLoadModel`. Its value is `loadResult`. -/
def loadNative (native : NativeLayer) (path : Text) (params : GenerationParams) :
    Jvm MlcLlm Bool :=
  Jvm.tryCatch
    (do
      let _ ← Jvm.call native.nativeInit
      setLoadProgress 90
      Jvm.call (native.nativeLoadModel path params.contextSize))
    (do
      setLoadProgress 90
      pure false)

/-- The rest of the load once the model directory is in the cache. -/
def loadFromCache (native : NativeLayer) (storage : Storage) (modelAssetName : Text)
    (params : GenerationParams) (model : CachedModel) : Jvm MlcLlm ModelInfo := do
  let modelDir := storage.cacheDir.child modelAssetName
  setLoadProgress 70
  let m ← Jvm.get
  let loadResult ←
    if m.isNativeLoaded then loadNative native modelDir.path params
    else do
      setLoadProgress 90
      pure false
  setLoadProgress 100
  setModelLoaded
  pure
    { name := modelAssetName, path := modelDir.path, sizeBytes := model.sizeBytes, version := 3,
      tensorCount := 0, metadataCount := 0, contextSize := params.contextSize,
      parameters :=
        if m.isNativeLoaded && loadResult then utf16 "MLC-LLM Gemma-2B"
        else utf16 "Smart Stub (MLC pending)" }

def loadModelFromAssets (native : NativeLayer) (storage : Storage) (modelAssetName : Text)
    (params : GenerationParams := {}) : Jvm MlcLlm ModelInfo :=
  Jvm.tryCatch
    (do
      setLoadProgress 20
      let assetList ← fileCall storage.assetList
      if (assetList.getD []).contains modelAssetName then
        let model ← fileCall storage.cachedModel
        setLoadProgress 50
        if model.dirExists then loadFromCache native storage modelAssetName params model
        else
          setLoadProgress 100
          setModelLoaded
          pure (stubInfo modelAssetName params (utf16 "Smart Stub (MLC model error)"))
      else
        setLoadProgress 100
        setModelLoaded
        pure (stubInfo modelAssetName params (utf16 "Smart Stub (MLC model not found)")))
    (do
      setLoadProgress 100
      setModelLoaded
      pure (stubInfo modelAssetName params (utf16 "Smart Stub (MLC error)")))

/-! ## Generating -/

/-- The time readings of one call, in order, and what `defaults.random()` draws. -/
structure Ambient where
  clock : Nat → Int
  pick : Fin 5

/-- The reply of the stub to a prompt, with the number of its space-separated words as its token
count. -/
def stubResult (ambient : Ambient) (prompt : Text) (generationTimeMs : Int)
    (tokensPerSecond : Int32 → Rat) : GenerationResult :=
  let response := SmartStub.generateSmartResponse ambient.pick prompt
  let tokenCount := Int32.ofNat (splitSpaces response).length
  { text := response, tokenCount := tokenCount, generationTimeMs := generationTimeMs,
    tokensPerSecond := tokensPerSecond tokenCount }

/-- What a callback sees: the text so far and the number of tokens. -/
structure TokenSink where
  stringBuilder : Text := []
  tokenCount : Int32 := 0

def TokenSink.onToken (sink : TokenSink) (token : Text) : TokenSink :=
  { stringBuilder := sink.stringBuilder ++ token, tokenCount := sink.tokenCount + 1 }

def generateWithMLCOrStub (native : NativeLayer) (ambient : Ambient) (prompt : Text)
    (params : GenerationParams) : Jvm MlcLlm GenerationResult := do
  let startTime := ambient.clock 0
  let m ← Jvm.get
  if m.isNativeLoaded then
    let run := native.nativeGenerate prompt params
    let sink := run.tokens.foldl TokenSink.onToken {}
    Jvm.tryCatch
      (do
        -- the callbacks have run by the time the native call returns or throws, one for each token
        Jvm.modify fun m =>
          { m with
            totalTokensGenerated := m.totalTokensGenerated + Int32.ofNat run.tokens.length }
        Jvm.call run.outcome
        let generationTime := ambient.clock 1 - startTime
        let tokensPerSec : Rat :=
          if 0 < sink.tokenCount ∧ 0 < generationTime then
            (sink.tokenCount.toInt : Rat) * 1000 / generationTime
          else 0
        Jvm.modify fun m =>
          { m with lastGenerationTokens := sink.tokenCount, lastTokensPerSecond := tokensPerSec }
        if sink.stringBuilder.isEmpty then
          pure (stubResult ambient prompt generationTime fun _ => tokensPerSec)
        else
          pure
            { text := sink.stringBuilder, tokenCount := sink.tokenCount,
              generationTimeMs := generationTime, tokensPerSecond := tokensPerSec })
      (do
        let generationTime := ambient.clock 1 - startTime
        pure (stubResult ambient prompt generationTime fun n =>
          if 0 < n then (n.toInt : Rat) * 1000 / (generationTime + 1) else 0))
  else
    pure (stubResult ambient prompt (ambient.clock 1 - startTime) fun n =>
      if 0 < n then (n.toInt : Rat) * 1000 / (ambient.clock 2 - startTime + 1) else 0)

/-- `generate`. The second component is what was passed to `onToken`, in order: one unit of the
text at a time. -/
def generate (native : NativeLayer) (ambient : Ambient) (prompt : Text)
    (params : GenerationParams := {}) : Jvm MlcLlm (GenerationResult × List Text) := do
  let m ← Jvm.get
  if m.isModelLoaded then
    Jvm.tryCatch
      (do
        let result ← generateWithMLCOrStub native ambient prompt params
        pure (result, result.text.map fun char => [char]))
      (pure
        ({ text := utf16 "Sorry, I had a thinking moment... 💜", tokenCount := 0,
           generationTimeMs := 0, tokensPerSecond := 0 }, []))
  else
    pure
      ({ text := utf16 "Model not loaded", tokenCount := 0, generationTimeMs := 0,
         tokensPerSecond := 0 }, [])

/-- `generateFlow`, for a collector that takes whatever is emitted. The value is what is emitted,
in order. -/
def generateFlow (native : NativeLayer) (ambient : Ambient) (prompt : Text)
    (params : GenerationParams := {}) : Jvm MlcLlm (List Text) := do
  let m ← Jvm.get
  if m.isModelLoaded then
    Jvm.tryCatch
      (do
        let result ← generateWithMLCOrStub native ambient prompt params
        pure (result.text.map fun char => [char]))
      (pure
        (utf16 "Sorry, I had a thinking moment... Try again? 💜" ::
          (SmartStub.generateSmartResponse ambient.pick prompt).map fun char => [char]))
  else pure [utf16 "Model not loaded yet..."]

end MlcLlm

end Kaede
