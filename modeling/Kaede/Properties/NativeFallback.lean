import Kaede.Ai.MlcLlm
import Mathlib.Logic.Unique

/-!
# When the engine falls back to the stub

Constructing `MlcLlm`, loading a model and generating go through four `try` blocks that all catch
`Exception`. An `Error` of the native layer passes through each of them. The three theorems about
the parts say exactly when a part returns. `session_returns_iff` puts them together.
-/

namespace Kaede

open Infra

namespace MlcLlm

/-- Constructing the engine, loading a model and generating once. -/
def session (native : NativeLayer) (storage : Storage) (ambient : Ambient) (modelAssetName : Text)
    (loadParams : GenerationParams) (prompt : Text) (params : GenerationParams) :
    Jvm MlcLlm GenerationResult := do
  initBlock native
  let _ ← loadModelFromAssets native storage modelAssetName loadParams
  let (result, _) ← generate native ambient prompt params
  pure result

/-! ## Conditions on the native layer -/

/-- The asset is there and its directory is in the cache, so the load gets as far as the native
calls. -/
def ReachesNativeLoad (storage : Storage) (modelAssetName : Text) : Prop :=
  (∃ assetList, storage.assetList = some assetList ∧
      (assetList.getD []).contains modelAssetName = true) ∧
    ∃ model, storage.cachedModel = some model ∧ model.dirExists = true

/-- Neither `nativeInit` nor the `nativeLoadModel` after it throws an `Error`. -/
def NativeLoadSafe (native : NativeLayer) (storage : Storage) (modelAssetName : Text)
    (params : GenerationParams) : Prop :=
  native.nativeInit ≠ .error .error ∧
    ((∃ ready, native.nativeInit = .ok ready) →
      native.nativeLoadModel (storage.cacheDir.child modelAssetName).path params.contextSize ≠
        .error .error)

/-- No native call that the session makes throws an `Error`. -/
def NoNativeError (native : NativeLayer) (storage : Storage) (modelAssetName : Text)
    (loadParams : GenerationParams) (prompt : Text) (params : GenerationParams) : Prop :=
  native.loadLibrary ≠ .error .error ∧
    (native.loadLibrary = .ok () →
      (ReachesNativeLoad storage modelAssetName →
          NativeLoadSafe native storage modelAssetName loadParams) ∧
        (native.nativeGenerate prompt params).outcome ≠ .error .error)

/-! ## Outcomes of a call -/

/-- A call whose `Exception`s are caught fails only by an `Error`. -/
theorem ok_or_exception_iff {α : Type} (outcome : Except Throwable α) :
    ((∃ a, outcome = .ok a) ∨ outcome = .error .exception) ↔ outcome ≠ .error .error := by
  cases outcome with
  | ok a => simp
  | error t => cases t <;> simp

/-! ## Loading -/

section Loading

variable {native : NativeLayer} {storage : Storage} {modelAssetName : Text}
  {params : GenerationParams} {R : Bool → Bool → Prop} {m : MlcLlm}

/-- The inner `try` block swallows `Exception`s and leaves the flags alone. -/
theorem loadNative_returns_iff {path : Text} :
    Jvm.Returns (loadNative native path params) m
        (fun _ m' => R m'.isNativeLoaded m'.isModelLoaded) ↔
      R m.isNativeLoaded m.isModelLoaded ∧ native.nativeInit ≠ .error .error ∧
        ((∃ ready, native.nativeInit = .ok ready) →
          native.nativeLoadModel path params.contextSize ≠ .error .error) := by
  simp only [loadNative, setLoadProgress, Jvm.returns_tryCatch, Jvm.returns_bind,
    Jvm.returns_call, Jvm.returns_modify, Jvm.returns_pure, Jvm.raises_bind, Jvm.raises_call,
    Jvm.raises_modify, ← ok_or_exception_iff]
  cases native.nativeInit with
  | ok ready => cases native.nativeLoadModel path params.contextSize <;> simp [and_comm]
  | error t => cases t <;> simp

theorem loadNative_not_raises {path : Text} {P : MlcLlm → Prop} :
    ¬ Jvm.Raises (loadNative native path params) m P := by
  simp [loadNative, setLoadProgress]

theorem loadFromCache_returns_iff {model : CachedModel} :
    Jvm.Returns (loadFromCache native storage modelAssetName params model) m
        (fun _ m' => R m'.isNativeLoaded m'.isModelLoaded) ↔
      R m.isNativeLoaded true ∧
        (m.isNativeLoaded = true → NativeLoadSafe native storage modelAssetName params) := by
  simp only [loadFromCache, setLoadProgress, setModelLoaded, Jvm.returns_bind, Jvm.returns_get,
    Jvm.returns_modify, Jvm.returns_pure, Jvm.returns_ite]
  cases hn : m.isNativeLoaded with
  | false => simp
  | true =>
    rw [if_pos rfl]
    refine (loadNative_returns_iff (R := fun native _ => R native true)).trans ?_
    simp [NativeLoadSafe]

theorem loadFromCache_not_raises {model : CachedModel} {P : MlcLlm → Prop} :
    ¬ Jvm.Raises (loadFromCache native storage modelAssetName params model) m P := by
  simp [loadFromCache, setLoadProgress, setModelLoaded, loadNative_not_raises]

/-- **A load returns, with the model loaded, unless a native call that it makes throws an
`Error`.** -/
theorem loadModelFromAssets_returns_iff :
    Jvm.Returns (loadModelFromAssets native storage modelAssetName params) m
        (fun _ m' => R m'.isNativeLoaded m'.isModelLoaded) ↔
      R m.isNativeLoaded true ∧
        (m.isNativeLoaded = true → ReachesNativeLoad storage modelAssetName →
          NativeLoadSafe native storage modelAssetName params) := by
  simp only [loadModelFromAssets, setLoadProgress, setModelLoaded, fileCall, Jvm.returns_tryCatch,
    Jvm.returns_bind, Jvm.returns_call, Jvm.returns_modify, Jvm.returns_pure, Jvm.returns_ite,
    Jvm.raises_bind, Jvm.raises_call, Jvm.raises_modify, Jvm.raises_pure, Jvm.raises_ite,
    loadFromCache_returns_iff, loadFromCache_not_raises, ReachesNativeLoad]
  -- the cases follow the checks of the source: the asset list, the copy, the directory
  cases storage.assetList with
  | none => simp
  | some assetList =>
    by_cases hc : modelAssetName ∈ assetList.getD []
    · cases storage.cachedModel with
      | none => simp [hc]
      | some model => cases hd : model.dirExists <;> simp [hc, hd]
    · simp [hc]

end Loading

/-! ## Generating -/

section Generating

variable {native : NativeLayer} {ambient : Ambient} {prompt : Text} {params : GenerationParams}
  {m : MlcLlm}

theorem stubResult_text_ne_nil {generationTimeMs : Int} {tokensPerSecond : Int32 → Rat} :
    (stubResult ambient prompt generationTimeMs tokensPerSecond).text ≠ [] :=
  SmartStub.generateSmartResponse_ne_nil ambient.pick prompt

/-- With the library loaded the call fails only by an `Error` of `nativeGenerate`. -/
theorem generateWithMLCOrStub_returns_iff :
    Jvm.Returns (generateWithMLCOrStub native ambient prompt params) m
        (fun result _ => result.text ≠ []) ↔
      (m.isNativeLoaded = true → (native.nativeGenerate prompt params).outcome ≠ .error .error) := by
  simp only [generateWithMLCOrStub, Jvm.returns_bind, Jvm.returns_get, Jvm.returns_ite,
    Jvm.returns_tryCatch, Jvm.returns_modify, Jvm.returns_call, Jvm.returns_pure,
    Jvm.raises_bind, Jvm.raises_modify, Jvm.raises_call, Jvm.raises_ite, Jvm.raises_pure,
    ← ok_or_exception_iff]
  cases m.isNativeLoaded with
  | false => simp [stubResult_text_ne_nil]
  | true =>
    cases (native.nativeGenerate prompt params).outcome with
    | error t => simp [stubResult_text_ne_nil]
    | ok u =>
      -- an empty native reply is replaced by the stub's
      by_cases hs : ((native.nativeGenerate prompt params).tokens.foldl TokenSink.onToken
          {}).stringBuilder = []
      · simp [hs, stubResult_text_ne_nil]
      · simp [hs]

theorem generateWithMLCOrStub_raises_iff {P : MlcLlm → Prop} :
    ¬ Jvm.Raises (generateWithMLCOrStub native ambient prompt params) m P := by
  simp [generateWithMLCOrStub]

/-- **`generate` returns a text unless `nativeGenerate` throws an `Error`.** -/
theorem generate_returns_iff :
    Jvm.Returns (generate native ambient prompt params) m (fun out _ => out.1.text ≠ []) ↔
      (m.isModelLoaded = true → m.isNativeLoaded = true →
        (native.nativeGenerate prompt params).outcome ≠ .error .error) := by
  simp only [generate, Jvm.returns_bind, Jvm.returns_get, Jvm.returns_ite, Jvm.returns_tryCatch,
    Jvm.returns_pure, Jvm.raises_bind, Jvm.raises_pure, generateWithMLCOrStub_returns_iff,
    generateWithMLCOrStub_raises_iff]
  cases m.isModelLoaded <;> simp [utf16_ne_nil]

end Generating

/-! ## The whole session -/

/-- The init block leaves the engine without the library when loading it throws an `Exception`. -/
theorem initBlock_returns_iff {native : NativeLayer} {R : Bool → Prop} :
    Jvm.Returns (initBlock native) fields (fun _ m => R m.isNativeLoaded) ↔
      (native.loadLibrary = .ok () ∧ R true) ∨
        (native.loadLibrary = .error .exception ∧ R false) := by
  simp [initBlock, fields, Unique.exists_iff]

/-- **The session completes with a text exactly when no native call that it makes throws an
`Error`.** -/
theorem session_returns_iff (native : NativeLayer) (storage : Storage) (ambient : Ambient)
    (modelAssetName : Text) (loadParams : GenerationParams) (prompt : Text)
    (params : GenerationParams) :
    Jvm.Returns (session native storage ambient modelAssetName loadParams prompt params) fields
        (fun result _ => result.text ≠ []) ↔
      NoNativeError native storage modelAssetName loadParams prompt params := by
  have hload : ∀ m : MlcLlm,
      Jvm.Returns (loadModelFromAssets native storage modelAssetName loadParams) m
          (fun _ m' => Jvm.Returns (generate native ambient prompt params) m'
            fun out _ => out.1.text ≠ []) ↔
        (m.isNativeLoaded = true →
          (ReachesNativeLoad storage modelAssetName →
              NativeLoadSafe native storage modelAssetName loadParams) ∧
            (native.nativeGenerate prompt params).outcome ≠ .error .error) := by
    intro m
    simp only [generate_returns_iff]
    refine (loadModelFromAssets_returns_iff (R := fun nativeLoaded modelLoaded =>
      modelLoaded = true → nativeLoaded = true →
        (native.nativeGenerate prompt params).outcome ≠ .error .error)).trans ?_
    constructor
    · exact fun h hn => ⟨h.2 hn, h.1 rfl hn⟩
    · exact fun h => ⟨fun _ hn => (h hn).2, fun hn => (h hn).1⟩
  simp only [session, Jvm.returns_bind, Jvm.returns_pure, hload]
  refine (initBlock_returns_iff (R := fun nativeLoaded => nativeLoaded = true →
    (ReachesNativeLoad storage modelAssetName →
        NativeLoadSafe native storage modelAssetName loadParams) ∧
      (native.nativeGenerate prompt params).outcome ≠ .error .error)).trans ?_
  unfold NoNativeError
  cases native.loadLibrary with
  | ok u => simp
  | error t => cases t <;> simp

/-- A device whose package lacks the library. -/
def missingLibrary : NativeLayer where
  loadLibrary := .error .error
  nativeInit := .error .error
  nativeLoadModel _ _ := .error .error
  nativeGenerate _ _ := { tokens := [], outcome := .error .error }

def emptyStorage : Storage where
  cacheDir := { path := utf16 "/data/cache", startsAtRoot := by decide }
  assetList := some (some [])
  cachedModel := none

/-- On such a device the constructor itself throws. -/
theorem missingLibrary_not_returns :
    ¬ Jvm.Returns
        (session missingLibrary emptyStorage { clock := fun _ => 0, pick := 0 } defaultModel {}
          (utf16 "hi") {}) fields
        (fun result _ => result.text ≠ []) := by
  rintro ⟨_, _, h, _⟩
  cases h

end MlcLlm

end Kaede
