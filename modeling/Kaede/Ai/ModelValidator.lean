import Kaede.Decimal
import Kaede.Infra.ByteBuffer

/-!
# `ModelValidator`

Checks a GGUF file by its name, its size and the first 16 bytes of its header. What the file system
answers is given by `ModelFile`.
-/

namespace Kaede

open Infra

/-- A path on the file system. -/
structure ModelFile where
  absolutePath : Text
  name : Text
  /-- What the file holds, if it exists. -/
  content : Option (List UInt8)
  /-- Opening it for reading works, or throws an exception with this message. -/
  opening : Except (Option Text) Unit

structure ValidationResult where
  success : Bool
  error : Option Text := none
  fileSize : Int := 0
  version : Int := 0
  tensorCount : Int := 0
  metadataCount : Int := 0
deriving DecidableEq, Repr

namespace ModelValidator

/-- `"GGUF"` in little-endian order. -/
def ggufMagic : Nat := 0x46554747

/-- 512 KB. -/
def minGgufSize : Int := 512 * 1024

def formatSize (bytes : Int) : Text :=
  if bytes < 1024 then intText bytes ++ utf16 " B"
  else if bytes < 1024 * 1024 then intText (bytes / 1024) ++ utf16 " KB"
  else if bytes < 1024 * 1024 * 1024 then intText (bytes / (1024 * 1024)) ++ utf16 " MB"
  else intText (bytes / (1024 * 1024 * 1024)) ++ utf16 " GB"

/-- `String.endsWith(suffix, ignoreCase = true)`. -/
def endsWithIgnoreCase (s suffix : Text) : Bool :=
  (suffix.map foldUnit).isSuffixOf (s.map foldUnit)

def failure (error : Text) : ValidationResult := { success := false, error := some error }

/-! ## The header -/

/-- `ByteArray(16)` after `raf.read(header)`. A short file leaves zeros behind its bytes. -/
def readHeader (bytes : List UInt8) : List UInt8 :=
  bytes.take 16 ++ List.replicate (16 - bytes.length) 0

/-- `buffer.int`. A `BufferUnderflowException` has no message. -/
def getInt (buffer : List UInt8) : Except (Option Text) (Int × List UInt8) :=
  getSigned none 4 buffer

/-- `buffer.long`. -/
def getLong (buffer : List UInt8) : Except (Option Text) (Int × List UInt8) :=
  getSigned none 8 buffer

/-- A count: a `Long` from version 3 on, before that an `Int`. -/
def getCount (version : Int) (buffer : List UInt8) : Except (Option Text) (Int × List UInt8) :=
  if 3 ≤ version then getLong buffer else getInt buffer

def validateGgufHeader (file : ModelFile) (bytes : List UInt8) :
    Except (Option Text) ValidationResult := do
  file.opening
  let (magic, buffer) ← getInt (readHeader bytes)
  if magic ≠ ggufMagic then
    pure (failure (utf16 "Invalid GGUF format. Magic number mismatch."))
  else
    let (version, buffer) ← getInt buffer
    -- an unknown version is only logged
    let (tensorCount, buffer) ← getCount version buffer
    let (metadataKvCount, _) ← getCount version buffer
    pure { success := true, fileSize := bytes.length, version := version,
           tensorCount := tensorCount, metadataCount := metadataKvCount }

/-! ## The file -/

def validate (file : ModelFile) : ValidationResult :=
  match file.content with
  | none => failure (utf16 "Model file not found: " ++ file.absolutePath)
  | some bytes =>
    if (bytes.length : Int) < minGgufSize then
      failure (utf16 "Model file too small (" ++ formatSize bytes.length ++ utf16 "). Minimum " ++
        formatSize minGgufSize ++ utf16 " required.")
    else if !endsWithIgnoreCase file.name (utf16 ".gguf") then
      failure (utf16 "Invalid file extension. Expected .gguf file.")
    else
      match validateGgufHeader file bytes with
      | .ok result => result
      | .error message =>
        failure (utf16 "Failed to read model file: " ++ message.getD (utf16 "null"))

/-! ## The documented header -/

/-- How many bytes a count takes: "8 bytes in v3, 4 bytes in v1-v2". -/
def countWidth (version : Nat) : Nat := if 3 ≤ version then 8 else 4

/-- A header: magic number, version, tensor count, count of metadata entries. -/
def ggufHeader (magic version tensorCount metadataKvCount : Nat) : List UInt8 :=
  leBytes 4 magic ++ leBytes 4 version ++ leBytes (countWidth version) tensorCount ++
    leBytes (countWidth version) metadataKvCount

end ModelValidator

end Kaede
