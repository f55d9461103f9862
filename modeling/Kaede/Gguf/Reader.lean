import Kaede.Gguf.Metadata
import Kaede.Infra.ByteBuffer
import Kaede.Infra.Recogniser
import Kaede.Utf8

/-!
# `GgufMetadataReaderImpl`

Reads the header and the metadata of a GGUF file from a stream. Values of some keys are skipped, and
long arrays are summarised. `depth` is how many calls of `parseValue` and `skipValue` the stack has
room for, and `room` how many elements an array or a list may have for the heap to have room for it.
-/

namespace Kaede.Gguf

open Infra Infra.Reader

/-! ## Types and values -/

inductive MetadataType where
  | uint8
  | int8
  | uint16
  | int16
  | uint32
  | int32
  | float32
  | bool
  | string
  | array
  | uint64
  | int64
  | float64
deriving DecidableEq, Repr

namespace MetadataType

def code : MetadataType → Nat
  | uint8 => 0
  | int8 => 1
  | uint16 => 2
  | int16 => 3
  | uint32 => 4
  | int32 => 5
  | float32 => 6
  | bool => 7
  | string => 8
  | array => 9
  | uint64 => 10
  | int64 => 11
  | float64 => 12

/-- `toString()` of the enum entry. -/
def name : MetadataType → String
  | uint8 => "UINT8"
  | int8 => "INT8"
  | uint16 => "UINT16"
  | int16 => "INT16"
  | uint32 => "UINT32"
  | int32 => "INT32"
  | float32 => "FLOAT32"
  | bool => "BOOL"
  | string => "STRING"
  | array => "ARRAY"
  | uint64 => "UINT64"
  | int64 => "INT64"
  | float64 => "FLOAT64"

def entries : List MetadataType :=
  [uint8, int8, uint16, int16, uint32, int32, float32, bool, string, array, uint64, int64, float64]

end MetadataType

/-- Floating-point numbers are given by their bits. -/
inductive MetadataValue where
  | uint8 (value : UInt8)
  | int8 (value : Int8)
  | uint16 (value : UInt16)
  | int16 (value : Int16)
  | uint32 (value : UInt32)
  | int32 (value : Int32)
  | float32 (bits : UInt32)
  | bool (value : Bool)
  | stringVal (value : Text)
  | arrayVal (elementType : MetadataType) (elements : List MetadataValue)
  | uint64 (value : UInt64)
  | int64 (value : Int64)
  | float64 (bits : UInt64)

/-- What the reader throws. -/
inductive Thrown where
  | ioException (message : Text)
  /-- An `IOException` of the stream itself. -/
  | streamFailure
  /-- `InvalidFileFormatException`, which is an `IOException` too. -/
  | invalidFileFormat
  /-- `IllegalArgumentException` of `ArrayList(capacity)`. -/
  | illegalCapacity (capacity : Int)
  | stackOverflow
  /-- `OutOfMemoryError` of an array or a list of this size. -/
  | outOfMemory (size : Nat)
deriving DecidableEq, Repr

def Thrown.IsIOException : Thrown → Prop
  | ioException _ => True
  | streamFailure => True
  | invalidFileFormat => True
  | illegalCapacity _ => False
  | stackOverflow => False
  | outOfMemory _ => False

/-- The two properties that a reader is created with. -/
structure Config where
  skipKeys : List Text
  arraySummariseThreshold : Int

instance (cfg : Config) (key : Text) : Decidable (key ∈ cfg.skipKeys) := inferInstance

/-- What `GgufMetadataReader.create()` passes. -/
def defaultConfig : Config where
  skipKeys :=
    [utf16 "tokenizer.chat_template", utf16 "tokenizer.ggml.scores", utf16 "tokenizer.ggml.tokens",
      utf16 "tokenizer.ggml.token_type"]
  arraySummariseThreshold := 1000

abbrev Read (α : Type) := Reader Thrown α

def fail {α : Type} (message : Text) : Read α := Reader.throw (.ioException message)

/-- Goes on as `x` when the heap has room for an array or a list of this size. -/
def allocating {α : Type} (room size : Nat) (x : Read α) : Read α :=
  if room < size then Reader.throw (.outOfMemory size) else x

/-! ## Numbers -/

/-- `ByteArray(n)` and `if (input.read(bytes) != n) throw IOException(message)`. -/
def readBytes (message : String) (n : Nat) : Read (List UInt8) :=
  readExactly .streamFailure (.ioException (utf16 message)) n

/-- `input.read()` and `if (… == -1) throw IOException(message)`. -/
def readByte (message : String) : Read UInt8 :=
  Reader.readByte .streamFailure (.ioException (utf16 message))

/-- A number of 8 bytes as a `Long`. -/
@[irreducible] def long (n : Nat) : Int := (n : Int).bmod (2 ^ 64)

/-- `Long.toInt()`. -/
@[irreducible] def toInt (n : Int) : Int := n.bmod (2 ^ 32)

@[irreducible] def littleEndianBytesToInt (bytes : List UInt8) : Int := (leNat bytes : Int).bmod (2 ^ 32)

/-- Only the last of the four bytes is checked. A missing one before it counts as `0xFF`. -/
def readLEUInt32 : Read Int := do
  let b0 ← readOne .streamFailure
  let b1 ← readOne .streamFailure
  let b2 ← readOne .streamFailure
  let b3 ← readOne .streamFailure
  match b3 with
  | none => fail (utf16 "Unexpected EOF while reading UInt32")
  | some b3 => pure (littleEndianBytesToInt [b0.getD 0xFF, b1.getD 0xFF, b2.getD 0xFF, b3])

/-- `input.readFully(buf)`. -/
def readFully (len : Nat) : Read (List UInt8) :=
  Reader.readFully .streamFailure
    (fun off => .ioException (utf16 "EOF after " ++ intText off ++ utf16 " of " ++ intText len ++
      utf16 " bytes")) len

/-- `input.skipFully(n)`. Nothing is skipped when `n` is negative. -/
def skipFully (n : Int) : Read Unit :=
  Reader.skipFully .streamFailure
    (.ioException (utf16 "EOF while skipping " ++ intText n ++ utf16 " bytes"))
    (.ioException (utf16 "Skip returned negative value")) n.toNat

/-- An unsigned number that is returned as a signed one. -/
def readLittleLong : Read Int := do
  let bytes ← readFully 8
  pure (long (leNat bytes))

/-- `ByteArray(len)` and `if (it.isNotEmpty()) input.readFully(it)`. -/
def readBuffer (room len : Nat) : Read (List UInt8) :=
  allocating room len (if len = 0 then pure [] else readFully len)

def readString (room : Nat) : Read Text := do
  let len ← readLittleLong
  if len < 0 ∨ 2147483647 < len then fail (utf16 "String too long: " ++ intText len)
  else
    let bytes ← readBuffer room len.toNat
    pure (decodeUtf8 bytes)

/-- `MetadataType.fromCode(code)`. -/
def fromCode (code : Int) : Read MetadataType :=
  match MetadataType.entries.find? fun t => (t.code : Int) == code with
  | none => fail (utf16 "Unknown metadata value type code: " ++ intText code)
  | some t => pure t

/-- `MetadataType.fromCode(littleEndianBytesToInt(input.readNBytesExact(4)))`. -/
def readType : Read MetadataType := do
  let bytes ← readBytes "Unexpected EOF" 4
  fromCode (littleEndianBytesToInt bytes)

/-! ## Values -/

def skipValue : Nat → MetadataType → Read Unit
  | 0, _ => Reader.throw .stackOverflow
  | _ + 1, .uint8 | _ + 1, .int8 | _ + 1, .bool => skipFully 1
  | _ + 1, .uint16 | _ + 1, .int16 => skipFully 2
  | _ + 1, .uint32 | _ + 1, .int32 | _ + 1, .float32 => skipFully 4
  | _ + 1, .uint64 | _ + 1, .int64 | _ + 1, .float64 => skipFully 8
  | _ + 1, .string => do
    let len ← readLittleLong
    skipFully len
  | depth + 1, .array => do
    let elemType ← readType
    let len ← readLittleLong
    let _ ← times (skipValue depth elemType) (toInt len).toNat
    pure ()

/-- What stands for an array that is not kept. -/
def summary (elemType : MetadataType) (count : Int) : Text :=
  utf16 "Array(" ++ utf16 elemType.name ++ utf16 ", " ++ intText count ++
    utf16 " items) /* summarised */"

/-- An array of this many elements is not kept. -/
def Config.summarises (cfg : Config) (count : Int) : Prop :=
  0 ≤ cfg.arraySummariseThreshold ∧ cfg.arraySummariseThreshold < count

instance (cfg : Config) (count : Int) : Decidable (cfg.summarises count) :=
  inferInstanceAs (Decidable (_ ∧ _))

def parseValue (cfg : Config) (room : Nat) : Nat → MetadataType → Read MetadataValue
  | 0, _ => Reader.throw .stackOverflow
  | _ + 1, .uint8 => do
    let b ← readByte "Unexpected EOF while reading uint8 value."
    pure (.uint8 b)
  | _ + 1, .int8 => do
    let b ← readByte "Unexpected EOF while reading int8 value."
    pure (.int8 (Int8.ofNat b.toNat))
  | _ + 1, .uint16 => do
    let bytes ← readBytes "Unexpected EOF while reading uint16 value." 2
    pure (.uint16 (UInt16.ofNat (leNat bytes)))
  | _ + 1, .int16 => do
    let bytes ← readBytes "Unexpected EOF while reading int16 value." 2
    pure (.int16 (Int16.ofNat (leNat bytes)))
  | _ + 1, .uint32 => do
    let bytes ← readBytes "Unexpected EOF while reading uint32 value." 4
    pure (.uint32 (UInt32.ofNat (leNat bytes)))
  | _ + 1, .int32 => do
    let bytes ← readBytes "Unexpected EOF while reading int32 value." 4
    pure (.int32 (Int32.ofNat (leNat bytes)))
  | _ + 1, .float32 => do
    let bytes ← readBytes "Unexpected EOF while reading float32 value." 4
    pure (.float32 (UInt32.ofNat (leNat bytes)))
  | _ + 1, .bool => do
    let b ← readByte "Unexpected EOF while reading boolean value."
    if b ≠ 0 ∧ b ≠ 1 then
      fail (utf16 "Invalid boolean value: " ++ intText b.toNat ++ utf16 " (must be 0 or 1).")
    else pure (.bool (b ≠ 0))
  | _ + 1, .string => do
    let str ← readString room
    pure (.stringVal str)
  | depth + 1, .array => do
    let elemType ← readType
    let len ← readLittleLong
    let count := toInt len
    if cfg.summarises count then
      let _ ← times (skipValue depth elemType) count.toNat
      pure (.stringVal (summary elemType count))
    else if count < 0 then Reader.throw (.illegalCapacity count)
    else
      allocating room count.toNat do
        let list ← times (parseValue cfg room depth elemType) count.toNat
        pure (.arrayVal elemType list)
  | _ + 1, .uint64 => do
    let bytes ← readBytes "Unexpected EOF while reading uint64 value." 8
    pure (.uint64 (UInt64.ofNat (leNat bytes)))
  | _ + 1, .int64 => do
    let bytes ← readBytes "Unexpected EOF while reading int64 value." 8
    pure (.int64 (Int64.ofNat (leNat bytes)))
  | _ + 1, .float64 => do
    let bytes ← readBytes "Unexpected EOF while reading float64 value." 8
    pure (.float64 (UInt64.ofNat (leNat bytes)))

/-! ## The file -/

/-- One round of the loop of `readMetaMap`. A skipped key adds nothing. -/
def readPair (cfg : Config) (room depth : Nat) : Read (Option (Text × MetadataValue)) := do
  let key ← readString room
  let valueT ← readType
  if key ∈ cfg.skipKeys then
    skipValue depth valueT
    pure none
  else
    let value ← parseValue cfg room depth valueT
    pure (some (key, value))

/-- The entries of a map, the one that was put last first. -/
abbrev MetaMap := List (Text × MetadataValue)

def readMetaMap (cfg : Config) (room depth : Nat) (kvCnt : Int) : Read MetaMap := do
  let pairs ← times (readPair cfg room depth) (toInt kvCnt).toNat
  pure pairs.reduceOption.reverse

/-- `"GGUF"`. -/
def magic : List UInt8 := [0x47, 0x47, 0x55, 0x46]

def ensureMagic : Read Bool := do
  let bytes ← readBytes "Not a valid file!" 4
  pure (bytes == magic)

def ensureMagicAndVersion : Read GgufVersion := do
  if ← ensureMagic then
    let code ← readLEUInt32
    match GgufVersion.fromCode code with
    | none => fail (utf16 "Unknown GGUF version code " ++ intText code)
    | some version => pure version
  else Reader.throw .invalidFileFormat

end Kaede.Gguf
