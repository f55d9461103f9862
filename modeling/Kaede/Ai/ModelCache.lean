import Kaede.Ai.MlcLlm
import Kaede.Infra.Machine
import Mathlib.Data.List.AList

/-!
# `copyModelToCache`

The copy of a model from the assets to the cache directory, as the history of all loads of it. A
step is one operation on the file system. It may fail, and the process may be killed between any
two of them. The cache directory outlives the process.

The loads come one after the other. Nothing else writes to the directory.
-/

namespace Kaede

open Infra

/-- The files of a directory. -/
abbrev Directory := AList fun _ : Text => List UInt8

/-- `listFiles()?.isNotEmpty() == true`. -/
def isNotEmpty (dir : Directory) : Bool := !dir.keys.isEmpty

/-- What a call of `copyModelToCache` does next. -/
inductive CopyPoint where
  /-- The check whether the model is in the cache already. -/
  | checking
  | makingDirectory
  /-- `assets.open` of the next of these files. -/
  | opening (files : List Text)
  /-- `outputStream()` of a file whose input is open. -/
  | creating (file : Text) (input : List UInt8) (files : List Text)
  /-- `copyTo`, with what is left of the input. -/
  | copying (file : Text) (input : List UInt8) (files : List Text)
  | returned
deriving DecidableEq, Repr

/-- A load that is under way or has returned. -/
structure CacheLoad where
  point : CopyPoint
  /-- Ghost: an operation of this load has failed. -/
  failed : Bool
deriving DecidableEq, Repr

structure ModelCache where
  /-- `modelDir`, if it exists. -/
  modelDir : Option Directory
  /-- The last load, unless its process was killed. -/
  load : Option CacheLoad

namespace ModelCache

/-- `modelFiles`. -/
def modelFiles : List Text :=
  [utf16 "ndarray-cache.json", utf16 "weights.tar", utf16 "mlc-chat-config.json"]

/-! ## Steps of one load -/

/--
The next operation of a load, when it succeeds.

`count` bounds what one round of `copyTo` moves. A missing asset, and a missing directory, raise
exceptions that are swallowed: the load goes on with the next file.
-/
def copyStep (assets : Directory) (count : Nat) :
    Option Directory → CopyPoint → Option (Option Directory × CopyPoint)
  | modelDir, .checking =>
    some (modelDir, if modelDir.any isNotEmpty then .returned else .makingDirectory)
  | modelDir, .makingDirectory => some (some (modelDir.getD ∅), .opening modelFiles)
  | modelDir, .opening [] => some (modelDir, .returned)
  | modelDir, .opening (file :: files) =>
    match assets.lookup file with
    | none => some (modelDir, .opening files)
    | some input => some (modelDir, .creating file input files)
  | none, .creating _ _ files => some (none, .opening files)
  | some dir, .creating file input files =>
    some (some (dir.insert file []), .copying file input files)
  | none, .copying _ _ _ => none
  | some dir, .copying _ [] files => some (some dir, .opening files)
  | some dir, .copying file (b :: input) files =>
    let written := (dir.lookup file).getD [] ++ (b :: input).take (count + 1)
    some (some (dir.insert file written), .copying file ((b :: input).drop (count + 1)) files)
  | _, .returned => none

/-- Where a load goes on when its next operation fails. `listFiles` returns `null` then, `mkdirs`
returns `false`, and any other operation throws an exception that is swallowed. -/
def failStep : CopyPoint → Option CopyPoint
  | .checking => some .makingDirectory
  | .makingDirectory => some (.opening modelFiles)
  | .opening [] => none
  | .opening (_ :: files) => some (.opening files)
  | .creating _ _ files => some (.opening files)
  | .copying _ _ files => some (.opening files)
  | .returned => none

/-! ## Histories of loads -/

inductive Event where
  /-- A load is started. -/
  | load
  | proceed (count : Nat)
  | fail
  /-- The process is killed. -/
  | kill
deriving DecidableEq, Repr

/-- No load is under way. -/
def isIdle (s : ModelCache) : Bool := s.load.all fun load => load.point = .returned

def step (assets : Directory) (s : ModelCache) : Event → Option ModelCache
  | .load =>
    if s.isIdle then some { s with load := some { point := .checking, failed := false } } else none
  | .proceed count =>
    s.load.bind fun load =>
      (copyStep assets count s.modelDir load.point).map fun next =>
        { modelDir := next.1, load := some { load with point := next.2 } }
  | .fail =>
    s.load.bind fun load =>
      (failStep load.point).map fun point =>
        { s with load := some { point := point, failed := true } }
  | .kill => some { s with load := none }

def machine (assets : Directory) : Machine ModelCache Event := ⟨step assets⟩

/-- Nothing has been loaded since the app was installed. -/
def init : ModelCache := { modelDir := none, load := none }

/-- What `loadModelFromAssets` sees of the directory. -/
def cachedModel (s : ModelCache) : CachedModel :=
  { dirExists := s.modelDir.isSome,
    sizeBytes := ((s.modelDir.getD ∅).entries.map fun file => (file.2.length : Int)).sum }

/-! ## What a step can be -/

variable {assets : Directory} {s t : ModelCache} {count : Nat}

theorem proceed_cases (h : step assets s (.proceed count) = some t) :
    ∃ load modelDir point, s.load = some load ∧
      copyStep assets count s.modelDir load.point = some (modelDir, point) ∧
      t = { modelDir := modelDir, load := some { load with point := point } } := by
  obtain ⟨load, hload, hnext⟩ := Option.bind_eq_some_iff.mp h
  obtain ⟨⟨modelDir, point⟩, hstep, rfl⟩ := Option.map_eq_some_iff.mp hnext
  exact ⟨load, modelDir, point, hload, hstep, rfl⟩

theorem fail_cases (h : step assets s .fail = some t) :
    ∃ load point, s.load = some load ∧ failStep load.point = some point ∧
      t = { s with load := some { point := point, failed := true } } := by
  obtain ⟨load, hload, hnext⟩ := Option.bind_eq_some_iff.mp h
  obtain ⟨point, hstep, rfl⟩ := Option.map_eq_some_iff.mp hnext
  exact ⟨load, point, hload, hstep, rfl⟩

end ModelCache

end Kaede
