import Kaede.Ai.ModelCache

/-!
# When the model cache is complete

`copyModelToCache` takes a directory that holds any file for a complete one. A load that does not
get through with all files of the model leaves such a directory behind for every later load.

* `PointSound` — what is in the directory at each point of a load
* `completeWhenUsed_of_run` — without such a load, no load returns an incomplete directory
* `exists_incomplete_of_harmful` — after such a load, some later one does
* `not_completeWhenUsed_of_other` — and every one does if the model has another file
-/

namespace Kaede

open Infra

/-- In the loop over the files. -/
def CopyPoint.inLoop : CopyPoint → Bool
  | .opening _ | .creating _ _ _ | .copying _ _ _ => true
  | _ => false

/-- A part of the file has still to be written. -/
def CopyPoint.midFile : CopyPoint → Bool
  | .copying _ (_ :: _) _ => true
  | _ => false

/-- The files that the load has still to finish. -/
def CopyPoint.ahead : CopyPoint → List Text
  | .opening files => files
  | .creating file _ files | .copying file _ files => file :: files
  | _ => []

namespace ModelCache

variable {assets dir : Directory} {modelDir modelDir' : Option Directory} {failed : Bool}
  {point point' : CopyPoint} {file : Text} {files : List Text} {count : Nat}
  {s t u : ModelCache} {e : Event}

/-! ## The content of the directory -/

/-- The directory has a copy of every file of the asset directory. -/
def HoldsAll (assets dir : Directory) : Prop :=
  ∀ file content, assets.lookup file = some content → dir.lookup file = some content

/-- The directory has no file, or a file for each asset. -/
def AllOrNone (assets : Directory) (modelDir : Option Directory) : Prop :=
  ∀ dir ∈ modelDir, dir.keys = [] ∨ ∀ file ∈ assets.keys, file ∈ dir.keys

instance : Decidable (AllOrNone assets modelDir) :=
  inferInstanceAs (Decidable (∀ dir ∈ modelDir, dir.keys = [] ∨ ∀ file ∈ assets.keys,
    file ∈ dir.keys))

/-- What is in the directory are copies of assets, but for the files that `except` names. -/
def Faithful (assets : Directory) (modelDir : Option Directory) (except : List Text) : Prop :=
  ∀ dir ∈ modelDir, ∀ file content, dir.lookup file = some content →
    file ∈ except ∨ assets.lookup file = some content

/-- The directory exists, and the assets that it lacks are still to come. -/
def Progress (assets : Directory) (modelDir : Option Directory) (files : List Text) : Prop :=
  ∃ dir, modelDir = some dir ∧ ∀ file ∈ assets, file ∈ dir ∨ file ∈ files

/-- The file is there, as far as it has been written. -/
def HalfWritten (assets : Directory) (modelDir : Option Directory) (file : Text)
    (input : List UInt8) : Prop :=
  ∃ dir written, modelDir = some dir ∧ dir.lookup file = some written ∧
    assets.lookup file = some (written ++ input)

theorem HoldsAll.of_faithful (h : Faithful assets (some dir) [])
    (hall : ∀ file ∈ assets, file ∈ dir) : HoldsAll assets dir := by
  intro file content hfile
  have hmem : file ∈ dir := hall file (AList.lookup_isSome.mp (by rw [hfile]; rfl))
  obtain ⟨copy, hcopy⟩ := Option.isSome_iff_exists.mp (AList.lookup_isSome.mpr hmem)
  rcases h dir rfl file copy hcopy with hno | hasset
  · cases hno
  · -- both are the content of the asset
    rw [hcopy, ← hasset, hfile]

theorem Faithful.weaken {except : List Text} (h : Faithful assets modelDir []) :
    Faithful assets modelDir except := by
  intro dir hdir file content hfile
  rcases h dir hdir file content hfile with hno | hasset
  · cases hno
  · exact Or.inr hasset

/-- A file that has been written to the end is a copy. -/
theorem Faithful.complete (h : Faithful assets modelDir [file])
    (hfile : HalfWritten assets modelDir file []) : Faithful assets modelDir [] := by
  intro dir hdir other content hother
  rcases h dir hdir other content hother with heq | hasset
  · obtain ⟨dir', written, hdir', hwritten, hasset⟩ := hfile
    cases hdir.symm.trans hdir'
    rw [List.mem_singleton] at heq
    rw [heq, hwritten, Option.some.injEq] at hother
    rw [List.append_nil, hother] at hasset
    exact Or.inr (heq ▸ hasset)
  · exact Or.inr hasset

/-- Writing to a file leaves the others alone. -/
theorem Faithful.insert {content : List UInt8} (h : Faithful assets (some dir) [file]) :
    Faithful assets (some (dir.insert file content)) [file] := by
  rintro _ ⟨⟩ other copy hother
  by_cases heq : other = file
  · exact Or.inl (List.mem_singleton.mpr heq)
  · rw [AList.lookup_insert_ne heq] at hother
    exact h dir rfl other copy hother

theorem Progress.weaken (h : Progress assets modelDir files) :
    Progress assets modelDir (file :: files) := by
  obtain ⟨dir, hdir, hall⟩ := h
  exact ⟨dir, hdir, fun other hother => (hall other hother).imp_right (List.mem_cons_of_mem file)⟩

theorem Progress.insert {content : List UInt8} (h : Progress assets (some dir) (file :: files)) :
    Progress assets (some (dir.insert file content)) files := by
  obtain ⟨_, ⟨⟩, hall⟩ := h
  refine ⟨_, rfl, fun other hother => ?_⟩
  rw [AList.mem_insert]
  rcases hall other hother with hmem | hahead
  · exact Or.inl (Or.inr hmem)
  · rcases List.mem_cons.mp hahead with heq | hahead
    · exact Or.inl (Or.inl heq)
    · exact Or.inr hahead

/-! ## Each point of a load -/

/-- What is in the directory when a load is at a point. -/
def PointSound (assets : Directory) (modelDir : Option Directory) (failed : Bool) :
    CopyPoint → Prop
  | .checking | .makingDirectory => Faithful assets modelDir [] ∧ AllOrNone assets modelDir
  | .opening files =>
    Faithful assets modelDir [] ∧ (failed = false → Progress assets modelDir files)
  | .creating file input files =>
    Faithful assets modelDir [] ∧ assets.lookup file = some input ∧
      (failed = false → Progress assets modelDir (file :: files))
  | .copying file input files =>
    Faithful assets modelDir [file] ∧ HalfWritten assets modelDir file input ∧
      (failed = false → Progress assets modelDir files)
  | .returned =>
    Faithful assets modelDir [] ∧ AllOrNone assets modelDir ∧
      (failed = false → Progress assets modelDir [])

/-- A directory with a file has them all. -/
theorem AllOrNone.progress (h : AllOrNone assets modelDir) (hne : modelDir.any isNotEmpty = true) :
    Progress assets modelDir [] := by
  cases modelDir with
  | none => cases hne
  | some dir =>
    refine ⟨dir, rfl, fun file hfile => Or.inl ?_⟩
    rcases h dir rfl with hnone | hall
    · simp [isNotEmpty, hnone] at hne
    · exact hall file hfile

theorem Progress.allOrNone (h : Progress assets modelDir []) : AllOrNone assets modelDir := by
  obtain ⟨dir, rfl, hall⟩ := h
  rintro _ ⟨⟩
  refine Or.inr fun file hfile => ?_
  rcases hall file hfile with hmem | hno
  · exact hmem
  · cases hno

/-- A file that is no asset is not missed. -/
theorem Progress.skip (h : Progress assets modelDir (file :: files))
    (hfile : assets.lookup file = none) : Progress assets modelDir files := by
  obtain ⟨dir, rfl, hall⟩ := h
  refine ⟨dir, rfl, fun other hother => ?_⟩
  rcases hall other hother with hmem | hahead
  · exact Or.inl hmem
  · rcases List.mem_cons.mp hahead with rfl | hahead
    · exact absurd hother (AList.lookup_eq_none.mp hfile)
    · exact Or.inr hahead

/-- The directory is made, and all files are still to come. -/
theorem pointSound_opening_modelFiles (hnames : ∀ file ∈ assets, file ∈ modelFiles)
    (h : Faithful assets modelDir []) :
    PointSound assets (some (modelDir.getD ∅)) failed (.opening modelFiles) := by
  refine ⟨?_, fun _ => ⟨_, rfl, fun file hfile => Or.inr (hnames file hfile)⟩⟩
  rintro _ ⟨⟩ file content hfile
  cases modelDir with
  | none => simp at hfile
  | some dir => exact h dir rfl file content hfile

theorem pointSound_copyStep (hnames : ∀ file ∈ assets, file ∈ modelFiles)
    (h : PointSound assets modelDir failed point)
    (hend : point = .opening [] → failed = true → AllOrNone assets modelDir)
    (hstep : copyStep assets count modelDir point = some (modelDir', point')) :
    PointSound assets modelDir' failed point' := by
  cases point with
  | checking =>
    cases hstep
    by_cases hne : modelDir.any isNotEmpty = true
    · -- the directory is taken as it is
      rw [if_pos hne]
      exact ⟨h.1, h.2, fun _ => h.2.progress hne⟩
    · rw [if_neg hne]
      exact h
  | makingDirectory =>
    cases hstep
    exact pointSound_opening_modelFiles hnames h.1
  | opening files =>
    cases files with
    | nil =>
      cases hstep
      refine ⟨h.1, ?_, h.2⟩
      -- only a load that has failed may have missed a file
      cases failed with
      | false => exact (h.2 rfl).allOrNone
      | true => exact hend rfl rfl
    | cons file files =>
      rw [copyStep] at hstep
      cases hfile : assets.lookup file with
      | none =>
        rw [hfile] at hstep
        cases hstep
        exact ⟨h.1, fun hok => (h.2 hok).skip hfile⟩
      | some input =>
        rw [hfile] at hstep
        cases hstep
        exact ⟨h.1, hfile, h.2⟩
  | creating file input files =>
    cases modelDir with
    | none =>
      cases hstep
      refine ⟨h.1, fun hok => ?_⟩
      -- without an error the directory has been made
      obtain ⟨_, hdir, -⟩ := h.2.2 hok
      cases hdir
    | some dir =>
      cases hstep
      refine ⟨h.1.weaken.insert, ⟨_, [], rfl, AList.lookup_insert dir, h.2.1⟩, fun hok => ?_⟩
      exact (h.2.2 hok).insert
  | copying file input files =>
    cases modelDir with
    | none => cases input <;> cases hstep
    | some dir =>
      obtain ⟨hfaithful, hhalf, hprogress⟩ := h
      cases input with
      | nil =>
        cases hstep
        exact ⟨hfaithful.complete hhalf, hprogress⟩
      | cons b input =>
        cases hstep
        -- what is taken from the input is appended to the file
        obtain ⟨_, written, ⟨⟩, hwritten, hasset⟩ := hhalf
        refine ⟨hfaithful.insert, ⟨_, _, rfl, AList.lookup_insert dir, ?_⟩, fun hok => ?_⟩
        · rw [hwritten, Option.getD_some, List.append_assoc, List.take_append_drop, hasset]
        · exact (hprogress hok).weaken.insert
  | returned => cases modelDir <;> cases hstep

/-- After an error in front of a file or behind its last byte, the load goes on with the next. -/
theorem pointSound_failStep (h : PointSound assets modelDir failed point)
    (hmid : point.midFile = false) (hstep : failStep point = some point') :
    PointSound assets modelDir true point' := by
  cases point with
  | checking =>
    cases hstep
    exact h
  | makingDirectory =>
    cases hstep
    exact ⟨h.1, by simp⟩
  | opening files =>
    cases files with
    | nil => cases hstep
    | cons file files =>
      cases hstep
      exact ⟨h.1, by simp⟩
  | creating file input files =>
    cases hstep
    exact ⟨h.1, by simp⟩
  | copying file input files =>
    cases hstep
    cases input with
    | nil =>
      -- nothing was left to write
      exact ⟨h.1.complete h.2.1, by simp⟩
    | cons b input => cases hmid
  | returned => cases hstep

/-- What a load that is killed leaves behind. -/
theorem faithful_of_pointSound (h : PointSound assets modelDir failed point)
    (hmid : point.midFile = false) : Faithful assets modelDir [] := by
  cases point with
  | copying file input files =>
    cases input with
    | nil => exact h.1.complete h.2.1
    | cons b input => cases hmid
  | _ => exact h.1

theorem allOrNone_of_pointSound (h : PointSound assets modelDir failed point)
    (hrest : point.inLoop = false) : AllOrNone assets modelDir := by
  cases point with
  | checking => exact h.2
  | makingDirectory => exact h.2
  | returned => exact h.2.1
  | opening files => cases hrest
  | creating file input files => cases hrest
  | copying file input files => cases hrest

/-! ## Whole histories -/

/-- The step does no harm: a load is interrupted between two files only, and a load that is killed
or has failed leaves no file behind, or one for each asset. -/
def Harmless (assets : Directory) (s : ModelCache) : Event → Prop
  | .load => True
  -- a load returns, and one of its operations has failed
  | .proceed _ => ∀ load ∈ s.load, load.point = .opening [] → load.failed = true →
      AllOrNone assets s.modelDir
  | .fail => ∀ load ∈ s.load, load.point.midFile = false
  | .kill => ∀ load ∈ s.load, load.point.midFile = false ∧
      (load.point.inLoop = true → AllOrNone assets s.modelDir)

instance : Decidable (Harmless assets s e) :=
  match e with
  | .load => .isTrue trivial
  | .proceed _ => inferInstanceAs (Decidable (∀ load ∈ s.load, load.point = .opening [] →
      load.failed = true → AllOrNone assets s.modelDir))
  | .fail => inferInstanceAs (Decidable (∀ load ∈ s.load, load.point.midFile = false))
  | .kill => inferInstanceAs (Decidable (∀ load ∈ s.load, load.point.midFile = false ∧
      (load.point.inLoop = true → AllOrNone assets s.modelDir)))

def Sound (assets : Directory) (s : ModelCache) : Prop :=
  match s.load with
  | none => Faithful assets s.modelDir [] ∧ AllOrNone assets s.modelDir
  | some load => PointSound assets s.modelDir load.failed load.point

theorem sound_init : Sound assets init := by
  constructor
  · rintro dir ⟨⟩
  · rintro dir ⟨⟩

theorem Sound.of_load {load : CacheLoad} (h : Sound assets s) (hload : s.load = some load) :
    PointSound assets s.modelDir load.failed load.point := by
  rw [Sound, hload] at h
  exact h

/-- Between two loads. -/
theorem Sound.resting (h : Sound assets s) (hidle : s.isIdle = true) :
    Faithful assets s.modelDir [] ∧ AllOrNone assets s.modelDir := by
  cases hload : s.load with
  | none =>
    rw [Sound, hload] at h
    exact h
  | some load =>
    have hreturned : load.point = .returned := by simpa [isIdle, hload] using hidle
    have hpoint := h.of_load hload
    rw [hreturned] at hpoint
    exact ⟨hpoint.1, hpoint.2.1⟩

theorem sound_step (hnames : ∀ file ∈ assets, file ∈ modelFiles) (h : Sound assets s)
    (hharmless : Harmless assets s e) (hstep : step assets s e = some t) : Sound assets t := by
  cases e with
  | load =>
    rw [step] at hstep
    split at hstep
    · next hidle =>
      cases hstep
      exact h.resting hidle
    · cases hstep
  | proceed count =>
    obtain ⟨load, modelDir, point, hload, hcopy, rfl⟩ := proceed_cases hstep
    have hpoint := h.of_load hload
    exact pointSound_copyStep hnames hpoint (hharmless load hload) hcopy
  | fail =>
    obtain ⟨load, point, hload, hfail, rfl⟩ := fail_cases hstep
    have hpoint := h.of_load hload
    exact pointSound_failStep hpoint (hharmless load hload) hfail
  | kill =>
    cases hstep
    cases hload : s.load with
    | none =>
      rw [Sound, hload] at h
      exact h
    | some load =>
      obtain ⟨hmid, hloop⟩ := hharmless load hload
      have hpoint := h.of_load hload
      refine ⟨faithful_of_pointSound hpoint hmid, ?_⟩
      by_cases hin : load.point.inLoop = true
      · exact hloop hin
      · exact allOrNone_of_pointSound hpoint (by simpa using hin)

theorem sound_of_run (hnames : ∀ file ∈ assets, file ∈ modelFiles) {es : List Event}
    (hharmless : (machine assets).Along (Harmless assets) init es)
    (hrun : (machine assets).run init es = some s) : Sound assets s :=
  (machine assets).run_invariant_along
    (fun _ _ _ h hharmless hstep => sound_step hnames h hharmless hstep) hharmless sound_init hrun

/-! ## The model that a load returns -/

/-- A load that has met no error, and that returns the cache directory as the path of its model,
returns a complete directory. -/
def CompleteWhenUsed (assets : Directory) (s : ModelCache) : Prop :=
  ∀ load ∈ s.load, load.point = .returned → load.failed = false →
    ∀ (native : NativeLayer) (storage : Storage) (modelAssetName : Text)
        (params : GenerationParams) (m : MlcLlm),
      storage.cachedModel = some s.cachedModel →
      Jvm.Returns (MlcLlm.loadModelFromAssets native storage modelAssetName params) m
        (fun info _ => info.path = (storage.cacheDir.child modelAssetName).path) →
      ∃ dir, s.modelDir = some dir ∧ HoldsAll assets dir

/--
**No load returns an incomplete directory if no load has broken off.**

The assets are among the three files that are copied. A load that is killed or fails does so
between two files, and leaves none of them behind or all.
-/
theorem completeWhenUsed_of_run (hnames : ∀ file ∈ assets, file ∈ modelFiles) {es : List Event}
    (hharmless : (machine assets).Along (Harmless assets) init es)
    (hrun : (machine assets).run init es = some s) : CompleteWhenUsed assets s := by
  intro load hload hreturned hok native storage modelAssetName params m _ _
  have hpoint := (sound_of_run hnames hharmless hrun).of_load hload
  rw [hreturned] at hpoint
  obtain ⟨hfaithful, -, hprogress⟩ := hpoint
  obtain ⟨dir, hdir, hall⟩ := hprogress hok
  rw [hdir] at hfaithful
  refine ⟨dir, hdir, HoldsAll.of_faithful hfaithful fun file hfile => ?_⟩
  exact (hall file hfile).resolve_right List.not_mem_nil

/-! ## After a load that has broken off -/

/-- A storage on which the load finds this model in the cache. -/
def cachedStorage (model : CachedModel) : Storage where
  cacheDir := { path := utf16 "/data/user/0/cache", startsAtRoot := by decide }
  assetList := some (some [MlcLlm.defaultModel])
  cachedModel := some model

/-- A load that has met no error returns the directory that it finds. -/
theorem not_completeWhenUsed {load : CacheLoad} (hload : s.load = some load)
    (hreturned : load.point = .returned) (hok : load.failed = false) (hdir : s.modelDir = some dir)
    (hlacks : ¬ HoldsAll assets dir) : ¬ CompleteWhenUsed assets s := by
  intro h
  let native : NativeLayer :=
    { loadLibrary := .error .error, nativeInit := .error .error,
      nativeLoadModel := fun _ _ => .error .error,
      nativeGenerate := fun _ _ => { tokens := [], outcome := .error .error } }
  have hexists : s.cachedModel.dirExists = true := by rw [cachedModel, hdir, Option.isSome_some]
  obtain ⟨dir', hdir', hall⟩ := h load hload hreturned hok native (cachedStorage s.cachedModel)
    MlcLlm.defaultModel {} MlcLlm.fields rfl (by
      simp [MlcLlm.loadModelFromAssets, MlcLlm.loadFromCache, MlcLlm.setLoadProgress,
        MlcLlm.setModelLoaded, fileCall, cachedStorage, hexists, MlcLlm.fields])
  rw [hdir, Option.some.injEq] at hdir'
  exact hlacks (hdir' ▸ hall)

/-- The directory is taken for complete, and it is not. -/
def Broken (assets : Directory) (modelDir : Option Directory) : Prop :=
  ∃ dir, modelDir = some dir ∧ isNotEmpty dir = true ∧ ¬ HoldsAll assets dir

theorem isNotEmpty_of_mem (h : file ∈ dir) : isNotEmpty dir = true := by
  rw [isNotEmpty, Bool.not_eq_true', List.isEmpty_eq_false_iff]
  exact List.ne_nil_of_mem h

theorem broken_of_not_allOrNone (h : ¬ AllOrNone assets modelDir) : Broken assets modelDir := by
  unfold AllOrNone at h
  push Not at h
  obtain ⟨dir, hdir, hsome, file, hasset, hmissing⟩ := h
  refine ⟨dir, hdir, by simp [isNotEmpty, hsome], fun hall => ?_⟩
  obtain ⟨content, hcontent⟩ := Option.isSome_iff_exists.mp (AList.lookup_isSome.mpr hasset)
  have hcopy := hall file content hcontent
  exact hmissing (AList.lookup_isSome.mp (by rw [hcopy]; rfl))

theorem broken_of_midFile (h : PointSound assets modelDir failed point)
    (hmid : point.midFile = true) : Broken assets modelDir := by
  cases point with
  | copying file input files =>
    cases input with
    | nil => cases hmid
    | cons b input =>
      obtain ⟨-, ⟨dir, written, hdir, hwritten, hasset⟩, -⟩ := h
      have hmem : file ∈ dir := AList.lookup_isSome.mp (by rw [hwritten]; rfl)
      refine ⟨dir, hdir, isNotEmpty_of_mem hmem, fun hall => ?_⟩
      have hcopy := hall file _ hasset
      rw [hwritten, Option.some.injEq] at hcopy
      simp at hcopy
  | _ => cases hmid

/-- The next load finds the broken directory in the cache and returns it. -/
theorem exists_incomplete_of_broken (h : Broken assets s.modelDir) :
    ∃ later u, (machine assets).run s later = some u ∧ ¬ CompleteWhenUsed assets u := by
  obtain ⟨dir, hdir, hne, hlacks⟩ := h
  refine ⟨[.kill, .load, .proceed 0],
    { modelDir := some dir, load := some { point := .returned, failed := false } }, ?_, ?_⟩
  · simp [Machine.run_cons, machine, step, isIdle, hdir, copyStep, hne]
  · exact not_completeWhenUsed rfl rfl rfl rfl hlacks

theorem broken_of_harmful (h : Sound assets s) (hharm : ¬ Harmless assets s e)
    (hstep : step assets s e = some t) : Broken assets t.modelDir := by
  cases e with
  | load => exact absurd trivial hharm
  | proceed count =>
    obtain ⟨load, modelDir, point, hload, hcopy, rfl⟩ := proceed_cases hstep
    simp only [Harmless, hload, Option.mem_some_iff, forall_eq'] at hharm
    obtain ⟨hend, hharm⟩ := Classical.not_imp.mp hharm
    rw [hend] at hcopy
    cases hcopy
    exact broken_of_not_allOrNone (fun hall => hharm fun _ => hall)
  | fail =>
    obtain ⟨load, point, hload, -, rfl⟩ := fail_cases hstep
    simp only [Harmless, hload, Option.mem_some_iff, forall_eq', Bool.not_eq_false] at hharm
    exact broken_of_midFile (h.of_load hload) hharm
  | kill =>
    cases hstep
    cases hload : s.load with
    | none => simp [Harmless, hload] at hharm
    | some load =>
      by_cases hmid : load.point.midFile = true
      · exact broken_of_midFile (h.of_load hload) hmid
      · simp only [Harmless, hload, Option.mem_some_iff, forall_eq', hmid, true_and] at hharm
        exact broken_of_not_allOrNone (fun hall => hharm fun _ => hall)

/-- **The first step that does harm spoils the cache.** Some later load meets no error and returns
an incomplete directory. -/
theorem exists_incomplete_of_harmful (hnames : ∀ file ∈ assets, file ∈ modelFiles)
    {es : List Event} (hharmless : (machine assets).Along (Harmless assets) init es)
    (hrun : (machine assets).run init es = some s) (hharm : ¬ Harmless assets s e)
    (hstep : (machine assets).step s e = some t) :
    ∃ later u, (machine assets).run t later = some u ∧ ¬ CompleteWhenUsed assets u :=
  exists_incomplete_of_broken
    (broken_of_harmful (sound_of_run hnames hharmless hrun) hharm hstep)

/-! ## Other assets -/

/-- Only the three files are copied. -/
structure OnlyModelFiles (modelDir : Option Directory) (point : CopyPoint) : Prop where
  copied : ∀ file ∈ modelDir.getD ∅, file ∈ modelFiles
  ahead : ∀ file ∈ point.ahead, file ∈ modelFiles

theorem onlyModelFiles_copyStep (h : OnlyModelFiles modelDir point)
    (hstep : copyStep assets count modelDir point = some (modelDir', point')) :
    OnlyModelFiles modelDir' point' := by
  obtain ⟨hcopied, hahead⟩ := h
  unfold copyStep at hstep
  constructor
  · split at hstep <;> grind [CopyPoint.ahead, AList.mem_insert]
  · split at hstep <;> grind [CopyPoint.ahead]

theorem onlyModelFiles_failStep (h : OnlyModelFiles modelDir point)
    (hstep : failStep point = some point') : OnlyModelFiles modelDir point' := by
  refine ⟨h.copied, ?_⟩
  have hahead := h.ahead
  unfold failStep at hstep
  split at hstep <;> grind [CopyPoint.ahead]

/-- Where the last load is. Without one, nothing is ahead. -/
def currentPoint (s : ModelCache) : CopyPoint := s.load.elim .returned CacheLoad.point

theorem onlyModelFiles_step (h : OnlyModelFiles s.modelDir s.currentPoint)
    (hstep : step assets s e = some t) : OnlyModelFiles t.modelDir t.currentPoint := by
  cases e with
  | load =>
    rw [step] at hstep
    split at hstep
    · cases hstep
      exact ⟨h.copied, by simp [currentPoint, CopyPoint.ahead]⟩
    · cases hstep
  | proceed count =>
    obtain ⟨load, modelDir, point, hload, hcopy, rfl⟩ := proceed_cases hstep
    rw [currentPoint, hload] at h
    exact onlyModelFiles_copyStep h hcopy
  | fail =>
    obtain ⟨load, point, hload, hfail, rfl⟩ := fail_cases hstep
    rw [currentPoint, hload] at h
    exact onlyModelFiles_failStep h hfail
  | kill =>
    cases hstep
    exact ⟨h.copied, by simp [currentPoint, CopyPoint.ahead]⟩

/-- **An asset under another name is never in the cache.** Every load that meets no error and
returns the cache directory returns an incomplete one. -/
theorem not_completeWhenUsed_of_other {es : List Event} {load : CacheLoad} (hfile : file ∈ assets)
    (hother : file ∉ modelFiles) (hrun : (machine assets).run init es = some s)
    (hload : s.load = some load) (hreturned : load.point = .returned) (hok : load.failed = false)
    (hdir : s.modelDir = some dir) : ¬ CompleteWhenUsed assets s := by
  have hstart : OnlyModelFiles init.modelDir init.currentPoint :=
    ⟨by simp [init], by simp [init, currentPoint, CopyPoint.ahead]⟩
  have honly := (machine assets).run_invariant
    (I := fun s => OnlyModelFiles s.modelDir s.currentPoint)
    (fun _ _ _ h hstep => onlyModelFiles_step h hstep) hstart hrun
  refine not_completeWhenUsed hload hreturned hok hdir fun hall => hother ?_
  obtain ⟨content, hcontent⟩ := Option.isSome_iff_exists.mp (AList.lookup_isSome.mpr hfile)
  have hcopy := hall file content hcontent
  have hcopied := honly.copied file
  rw [hdir] at hcopied
  exact hcopied (AList.lookup_isSome.mp (by rw [Option.getD_some, hcopy]; rfl))

/-- A model of one file. -/
def weights : Directory := AList.singleton (utf16 "weights.tar") [1, 2]

/-- A load is killed before its first file, and the next one copies the model. -/
def killedEarly : List Event :=
  [.load, .proceed 0, .proceed 0, .kill, .load, .proceed 0, .proceed 0, .proceed 0, .proceed 0,
    .proceed 0, .proceed 1, .proceed 0, .proceed 0, .proceed 0]

theorem completeWhenUsed_of_run_killedEarly :
    ∃ s, (machine weights).run init killedEarly = some s ∧
      s.load = some { point := .returned, failed := false } ∧ CompleteWhenUsed weights s := by
  have hrun : (machine weights).run init killedEarly = some _ := rfl
  exact ⟨_, hrun, rfl, completeWhenUsed_of_run (by decide +kernel) (by decide +kernel) hrun⟩

/-- A load is killed after the first byte of the file. The next one returns the one byte. -/
theorem killed_midFile_incomplete :
    ∃ s, (machine weights).run init
        [.load, .proceed 0, .proceed 0, .proceed 0, .proceed 0, .proceed 0, .proceed 0, .kill,
          .load, .proceed 0] = some s ∧ ¬ CompleteWhenUsed weights s := by
  refine ⟨_, rfl, not_completeWhenUsed rfl rfl rfl rfl fun hall => ?_⟩
  have hcopy := hall (utf16 "weights.tar") [1, 2] (AList.lookup_insert ∅)
  revert hcopy
  decide +kernel

end ModelCache

end Kaede
