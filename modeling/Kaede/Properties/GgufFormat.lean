import Kaede.Gguf.Structured

/-!
# What the metadata reader accepts

The format as relations between a value and its bytes, with the nesting of arrays bounded, and the
reader as a recogniser of it.

* `recognises_skipValue`, `recognises_parseValue` — one value
* `readStructuredMetadata_eq_ok_iff` — a whole file
* `readMetaMap_of_keepAll` — skipped keys and summarised arrays change nothing else
-/

namespace Kaede.Gguf

open Infra Infra.Reader InputStream

/-! ## The format -/

/-- The width of a type that is a number, and the value of the number. -/
def MetadataType.number : MetadataType → Option (Nat × (Nat → MetadataValue))
  | uint8 => some (1, fun n => .uint8 (UInt8.ofNat n))
  | int8 => some (1, fun n => .int8 (Int8.ofNat n))
  | uint16 => some (2, fun n => .uint16 (UInt16.ofNat n))
  | int16 => some (2, fun n => .int16 (Int16.ofNat n))
  | uint32 => some (4, fun n => .uint32 (UInt32.ofNat n))
  | int32 => some (4, fun n => .int32 (Int32.ofNat n))
  | float32 => some (4, fun n => .float32 (UInt32.ofNat n))
  | uint64 => some (8, fun n => .uint64 (UInt64.ofNat n))
  | int64 => some (8, fun n => .int64 (Int64.ofNat n))
  | float64 => some (8, fun n => .float64 (UInt64.ofNat n))
  | bool => none
  | string => none
  | array => none

/-- What may be passed over as a value: the bytes of a boolean are not looked at, and a length that
is negative as a `Long` stands for nothing. -/
inductive Passed (Element : MetadataType → List UInt8 → Prop) : MetadataType → List UInt8 → Prop
  | number {t : MetadataType} {width : Nat} {make : Nat → MetadataValue} {bytes : List UInt8}
      (ht : t.number = some (width, make)) (h : bytes.length = width) : Passed Element t bytes
  | bool (b : UInt8) : Passed Element .bool [b]
  | string {n : Nat} {bytes : List UInt8} (hn : n < 2 ^ 64) (h : bytes.length = (long n).toNat) :
      Passed Element .string (leBytes 8 n ++ bytes)
  | array {elem : MetadataType} {n : Nat} {units : List Unit} {bytes : List UInt8}
      (hn : n < 2 ^ 64) (hcount : units.length = (toInt (long n)).toNat)
      (h : Each (fun _ => Element elem) units bytes) :
      Passed Element .array (leBytes 4 elem.code ++ leBytes 8 n ++ bytes)

/-- Passed over, with arrays nested less than `depth` deep. -/
def Passes : Nat → MetadataType → List UInt8 → Prop
  | 0 => fun _ _ => False
  | depth + 1 => Passed (Passes depth)

/-- A text with its length. -/
inductive EncodesText (room : Nat) : Text → List UInt8 → Prop
  | mk (bytes : List UInt8) (h : bytes.length < 2 ^ 31) (hroom : bytes.length ≤ room) :
      EncodesText room (decodeUtf8 bytes) (leBytes 8 bytes.length ++ bytes)

/-- What is read as a value. An array says how many elements it has with the low 32 bits of its
length. -/
inductive Encoded (cfg : Config) (room : Nat)
    (Element : MetadataType → MetadataValue → List UInt8 → Prop)
    (Skipped : MetadataType → List UInt8 → Prop) : MetadataType → MetadataValue → List UInt8 → Prop
  | number {t : MetadataType} {width : Nat} {make : Nat → MetadataValue} {n : Nat}
      (ht : t.number = some (width, make)) (hn : n < 256 ^ width) :
      Encoded cfg room Element Skipped t (make n) (leBytes width n)
  | bool (b : Bool) : Encoded cfg room Element Skipped .bool (.bool b) [if b then 1 else 0]
  | string {text : Text} {bytes : List UInt8} (h : EncodesText room text bytes) :
      Encoded cfg room Element Skipped .string (.stringVal text) bytes
  | array {elem : MetadataType} {n : Nat} {elements : List MetadataValue} {bytes : List UInt8}
      (hn : n < 2 ^ 64) (hcount : toInt (long n) = elements.length)
      (hkept : ¬ cfg.summarises elements.length) (hroom : elements.length ≤ room)
      (h : Each (Element elem) elements bytes) :
      Encoded cfg room Element Skipped .array (.arrayVal elem elements)
        (leBytes 4 elem.code ++ leBytes 8 n ++ bytes)
  | summary {elem : MetadataType} {n : Nat} {units : List Unit} {bytes : List UInt8}
      (hn : n < 2 ^ 64) (hcount : toInt (long n) = units.length)
      (hlong : cfg.summarises units.length) (h : Each (fun _ => Skipped elem) units bytes) :
      Encoded cfg room Element Skipped .array (.stringVal (Gguf.summary elem units.length))
        (leBytes 4 elem.code ++ leBytes 8 n ++ bytes)

/-- Read as a value, with arrays nested less than `depth` deep. -/
def Encodes (cfg : Config) (room : Nat) : Nat → MetadataType → MetadataValue → List UInt8 → Prop
  | 0 => fun _ _ _ => False
  | depth + 1 => Encoded cfg room (Encodes cfg room depth) (Passes depth)

/-! ## Numbers, texts and types -/

theorem readBytes_recognises (message : String) {n : Nat} (hn : 0 < n) :
    Recognises (readBytes message n) fun bs used => used = bs ∧ bs.length = n :=
  recognises_readExactly hn

theorem readLittleLong_recognises :
    Recognises readLittleLong fun v used => ∃ n < 2 ^ 64, v = long n ∧ used = leBytes 8 n := by
  refine recognises_congr (recognises_bind_pure (recognises_readFully _ 8) fun bytes =>
    long (leNat bytes)) fun v used => ?_
  constructor
  · rintro ⟨u, rfl, rfl, hlength⟩
    refine ⟨leNat used, ?_, rfl, ?_⟩
    · have hlt := leNat_lt used
      rw [hlength] at hlt
      omega
    · rw [← hlength, leBytes_leNat]
  · rintro ⟨n, hn, rfl, rfl⟩
    refine ⟨leBytes 8 n, ?_, rfl, length_leBytes 8 n⟩
    rw [leNat_leBytes hn]

/-- An entry is found by its code. -/
theorem find?_code_iff {α : Type} {code : α → Nat} {entries : List α} (hmem : ∀ a, a ∈ entries)
    (hinj : ∀ a b, code a = code b → a = b) {c : Int} {a : α} :
    (entries.find? fun a => (code a : Int) == c) = some a ↔ c = code a := by
  constructor
  · intro h
    have hc := List.find?_some h
    rw [beq_iff_eq] at hc
    exact hc.symm
  · rintro rfl
    cases hfind : entries.find? fun b => (code b : Int) == code a with
    | none =>
      have hne := List.find?_eq_none.mp hfind a (hmem a)
      simp at hne
    | some b =>
      have hb := List.find?_some hfind
      rw [beq_iff_eq] at hb
      rw [hinj b a (by exact_mod_cast hb)]

theorem fromCode_recognises (code : Int) :
    Recognises (fromCode code) fun t used => code = t.code ∧ used = [] := by
  have hfind : ∀ t : MetadataType,
      (MetadataType.entries.find? fun t => (t.code : Int) == code) = some t ↔ code = t.code := by
    intro t
    refine find?_code_iff (fun t => ?_) (fun a b hab => ?_)
    · cases t <;> simp [MetadataType.entries]
    · cases a <;> cases b <;> first | rfl | cases hab
  rw [fromCode]
  split
  · next hnone =>
    refine recognises_congr (recognises_throw _) fun t used => ?_
    rw [← hfind, hnone]
    simp
  · next t hsome =>
    refine recognises_congr (recognises_pure t) fun t' used => ?_
    rw [← hfind, hsome, Option.some.injEq, eq_comm]

theorem code_lt (t : MetadataType) : t.code < 2 ^ 31 := by
  cases t <;> decide

theorem readType_recognises : Recognises readType fun t used => used = leBytes 4 t.code := by
  refine recognises_congr (recognises_bind (readBytes_recognises _ (by decide)) fun bytes =>
    fromCode_recognises _) fun t used => ?_
  constructor
  · rintro ⟨bytes, u, w, rfl, ⟨rfl, hlength⟩, heq, rfl⟩
    have hlt := leNat_lt u
    rw [hlength] at hlt
    unfold littleEndianBytesToInt at heq
    have hnat : leNat u = t.code := eq_of_bmod_eq (by omega) heq
    rw [← hnat, ← hlength, leBytes_leNat, List.append_nil]
  · rintro rfl
    refine ⟨_, _, [], (List.append_nil _).symm, ⟨rfl, by simp⟩, ?_, rfl⟩
    have hcode := code_lt t
    unfold littleEndianBytesToInt
    rw [leNat_leBytes (show t.code < 256 ^ 4 by omega)]
    exact (bmod_eq_self_iff (by omega)).mpr hcode

theorem long_of_lt {n : Nat} (h : n < 2 ^ 63) : long n = n := by
  unfold long
  exact (bmod_eq_self_iff (by omega)).mpr h

theorem eq_of_long_eq {n m : Nat} (hn : n < 2 ^ 64) (h : long n = m) : n = m := by
  unfold long at h
  exact eq_of_bmod_eq hn h

theorem recognises_allocating {α : Type} {x : Read α} {L : α → List UInt8 → Prop}
    (hx : Recognises x L) (room size : Nat) :
    Recognises (allocating room size x) fun a used => size ≤ room ∧ L a used := by
  refine recognises_congr (recognises_guard hx) fun a used => ?_
  rw [Nat.not_lt]

theorem readBuffer_recognises (room len : Nat) :
    Recognises (readBuffer room len) fun bs used => len ≤ room ∧ used = bs ∧ bs.length = len := by
  refine recognises_congr (recognises_allocating
    (recognises_ite (recognises_pure []) (recognises_readFully _ len)) room len) fun bs used => ?_
  apply and_congr_right'
  split
  · next hzero =>
    constructor
    · rintro ⟨rfl, rfl⟩
      exact ⟨rfl, hzero.symm⟩
    · rintro ⟨rfl, hlength⟩
      rw [hzero] at hlength
      exact ⟨List.length_eq_zero_iff.mp hlength, List.length_eq_zero_iff.mp hlength⟩
  · rfl

theorem readString_recognises (room : Nat) : Recognises (readString room) (EncodesText room) := by
  refine recognises_congr (recognises_bind readLittleLong_recognises fun len =>
    recognises_guard (recognises_bind_pure (readBuffer_recognises room len.toNat) decodeUtf8))
    fun text used => ?_
  constructor
  · rintro ⟨len, u, v, rfl, ⟨n, hn, rfl, rfl⟩, hlen, bytes, rfl, hroom, rfl, hlength⟩
    have hself : n = v.length := eq_of_long_eq hn (by omega)
    rw [hself]
    exact EncodesText.mk v (by omega) (by omega)
  · rintro ⟨bytes, h, hroom⟩
    have hlong : long bytes.length = bytes.length := long_of_lt (by omega)
    refine ⟨long bytes.length, leBytes 8 bytes.length, bytes, rfl,
      ⟨bytes.length, by omega, rfl, rfl⟩, ?_, bytes, rfl, ?_, rfl, ?_⟩
    · rw [hlong]
      omega
    · rw [hlong, Int.toNat_natCast]
      exact hroom
    · rw [hlong, Int.toNat_natCast]

/-! ## Values -/

theorem skipFully_recognises (n : Int) :
    Recognises (skipFully n) fun _ used => used.length = n.toNat :=
  recognises_skipFully n.toNat

theorem passed_number_iff {Element : MetadataType → List UInt8 → Prop} {t : MetadataType}
    {width : Nat} {make : Nat → MetadataValue} (ht : t.number = some (width, make))
    {bytes : List UInt8} : Passed Element t bytes ↔ bytes.length = width := by
  constructor
  · rintro h
    cases h with
    | number ht' h =>
      rw [ht] at ht'
      cases ht'
      exact h
    | bool => cases ht
    | string => cases ht
    | array => cases ht
  · exact Passed.number ht

/-- **What is skipped as a value.** -/
theorem recognises_skipValue (depth : Nat) (t : MetadataType) :
    Recognises (skipValue depth t) fun _ => Passes depth t := by
  induction depth generalizing t with
  | zero => exact recognises_throw _
  | succ depth ih =>
    have hnumber : ∀ {t : MetadataType} {width : Nat} {make : Nat → MetadataValue},
        t.number = some (width, make) →
          Recognises (skipFully width) fun _ => Passes (depth + 1) t := by
      intro t width make ht
      refine recognises_congr (skipFully_recognises width) fun _ used => ?_
      exact (passed_number_iff ht).symm
    cases t with
    | uint8 => exact hnumber rfl
    | int8 => exact hnumber rfl
    | uint16 => exact hnumber rfl
    | int16 => exact hnumber rfl
    | uint32 => exact hnumber rfl
    | int32 => exact hnumber rfl
    | float32 => exact hnumber rfl
    | uint64 => exact hnumber rfl
    | int64 => exact hnumber rfl
    | float64 => exact hnumber rfl
    | bool =>
      refine recognises_congr (skipFully_recognises 1) fun _ used => ?_
      constructor
      · intro h
        obtain ⟨b, rfl⟩ := List.length_eq_one_iff.mp h
        exact Passed.bool b
      · intro h
        cases h with
        | number ht => cases ht
        | bool b => rfl
    | string =>
      refine recognises_congr (recognises_bind readLittleLong_recognises fun len =>
        skipFully_recognises len) fun _ used => ?_
      constructor
      · rintro ⟨_, _, v, rfl, ⟨n, hn, rfl, rfl⟩, h⟩
        exact Passed.string hn h
      · intro h
        cases h with
        | number ht => cases ht
        | string hn h => exact ⟨_, _, _, rfl, ⟨_, hn, rfl, rfl⟩, h⟩
    | array =>
      refine recognises_congr (recognises_bind readType_recognises fun elem =>
        recognises_bind readLittleLong_recognises fun len =>
          recognises_bind_pure (recognises_times (ih elem) (toInt len).toNat) fun _ => ())
        fun _ used => ?_
      constructor
      · rintro ⟨elem, _, _, rfl, rfl, _, _, _, rfl, ⟨n, hn, rfl, rfl⟩, units, -, hcount, h⟩
        rw [← List.append_assoc]
        exact Passed.array hn hcount h
      · intro h
        cases h with
        | number ht => cases ht
        | array hn hcount h =>
          exact ⟨_, _, _, List.append_assoc .., rfl, _, _, _, rfl, ⟨_, hn, rfl, rfl⟩, _, rfl,
            hcount, h⟩

section

variable {cfg : Config} {room : Nat} {Element : MetadataType → MetadataValue → List UInt8 → Prop}
  {Skipped : MetadataType → List UInt8 → Prop}

theorem encoded_number_iff {t : MetadataType} {width : Nat} {make : Nat → MetadataValue}
    (ht : t.number = some (width, make)) {v : MetadataValue} {bytes : List UInt8} :
    Encoded cfg room Element Skipped t v bytes ↔
      ∃ n < 256 ^ width, v = make n ∧ bytes = leBytes width n := by
  constructor
  · rintro h
    cases h with
    | number ht' hn =>
      rw [ht] at ht'
      cases ht'
      exact ⟨_, hn, rfl, rfl⟩
    | bool => cases ht
    | string => cases ht
    | array => cases ht
    | summary => cases ht
  · rintro ⟨n, hn, rfl, rfl⟩
    exact Encoded.number ht hn

/-- A number that is read as a whole. -/
theorem readBytes_recognises_number {t : MetadataType} {width : Nat} {make : Nat → MetadataValue}
    (ht : t.number = some (width, make)) (hwidth : 0 < width) (message : String) :
    Recognises (do let bytes ← readBytes message width; pure (make (leNat bytes)))
      (Encoded cfg room Element Skipped t) := by
  refine recognises_congr (recognises_bind_pure (readBytes_recognises message hwidth) fun bytes =>
    make (leNat bytes)) fun v used => ?_
  rw [encoded_number_iff ht]
  constructor
  · rintro ⟨u, rfl, rfl, rfl⟩
    exact ⟨leNat used, leNat_lt used, rfl, (leBytes_leNat used).symm⟩
  · rintro ⟨n, hn, rfl, rfl⟩
    exact ⟨leBytes width n, by rw [leNat_leBytes hn], rfl, length_leBytes width n⟩

/-- A number that is one byte. -/
theorem readByte_recognises_number {t : MetadataType} {make : Nat → MetadataValue}
    (ht : t.number = some (1, make)) (message : String) :
    Recognises (do let b ← readByte message; pure (make b.toNat))
      (Encoded cfg room Element Skipped t) := by
  refine recognises_congr (recognises_bind_pure recognises_readByte fun b => make b.toNat)
    fun v used => ?_
  rw [encoded_number_iff ht]
  constructor
  · rintro ⟨b, rfl, rfl⟩
    refine ⟨b.toNat, b.toNat_lt, rfl, ?_⟩
    rw [leBytes, leBytes, UInt8.ofNat_toNat]
  · rintro ⟨n, hn, rfl, rfl⟩
    have htoNat : (UInt8.ofNat n).toNat = n := by
      rw [UInt8.toNat_ofNat']
      omega
    exact ⟨UInt8.ofNat n, by rw [htoNat], rfl⟩

end

/-- **What is read as a value.** -/
theorem recognises_parseValue (cfg : Config) (room depth : Nat) (t : MetadataType) :
    Recognises (parseValue cfg room depth t) (Encodes cfg room depth t) := by
  induction depth generalizing t with
  | zero => exact recognises_throw _
  | succ depth ih =>
    cases t with
    | uint8 =>
      refine recognises_congr (recognises_bind_pure recognises_readByte MetadataValue.uint8)
        fun v used => ?_
      rw [Encodes, encoded_number_iff (t := .uint8) rfl]
      constructor
      · rintro ⟨b, rfl, rfl⟩
        refine ⟨b.toNat, b.toNat_lt, by rw [UInt8.ofNat_toNat], ?_⟩
        rw [leBytes, leBytes, UInt8.ofNat_toNat]
      · rintro ⟨n, -, rfl, rfl⟩
        exact ⟨UInt8.ofNat n, rfl, rfl⟩
    | int8 => exact readByte_recognises_number (t := .int8) rfl _
    | uint16 => exact readBytes_recognises_number (t := .uint16) rfl (by decide) _
    | int16 => exact readBytes_recognises_number (t := .int16) rfl (by decide) _
    | uint32 => exact readBytes_recognises_number (t := .uint32) rfl (by decide) _
    | int32 => exact readBytes_recognises_number (t := .int32) rfl (by decide) _
    | float32 => exact readBytes_recognises_number (t := .float32) rfl (by decide) _
    | uint64 => exact readBytes_recognises_number (t := .uint64) rfl (by decide) _
    | int64 => exact readBytes_recognises_number (t := .int64) rfl (by decide) _
    | float64 => exact readBytes_recognises_number (t := .float64) rfl (by decide) _
    | bool =>
      refine recognises_congr (recognises_bind recognises_readByte fun b =>
        recognises_guard (recognises_pure (MetadataValue.bool (b ≠ 0)))) fun v used => ?_
      constructor
      · rintro ⟨b, _, _, rfl, rfl, hb, rfl, rfl⟩
        have hbit : b = 0 ∨ b = 1 := by
          by_contra hne
          exact hb (not_or.mp hne)
        rcases hbit with rfl | rfl
        · exact Encoded.bool false
        · exact Encoded.bool true
      · intro h
        cases h with
        | number ht => cases ht
        | bool b =>
          cases b with
          | false => exact ⟨0, [0], [], rfl, rfl, by simp, rfl, rfl⟩
          | true => exact ⟨1, [1], [], rfl, rfl, by simp, rfl, rfl⟩
    | string =>
      refine recognises_congr (recognises_bind_pure (readString_recognises room)
        MetadataValue.stringVal)
        fun v used => ?_
      constructor
      · rintro ⟨text, rfl, h⟩
        exact Encoded.string h
      · intro h
        cases h with
        | number ht => cases ht
        | string h => exact ⟨_, rfl, h⟩
    | array =>
      refine recognises_congr (recognises_bind readType_recognises fun elem =>
        recognises_bind readLittleLong_recognises fun len =>
          recognises_ite
            (recognises_bind_pure (recognises_times (recognises_skipValue depth elem) _) fun _ =>
              MetadataValue.stringVal (summary elem (toInt len)))
            (recognises_guard (recognises_allocating (recognises_bind_pure
              (recognises_times (ih elem) _) (MetadataValue.arrayVal elem)) room _)))
        fun v used => ?_
      constructor
      · rintro ⟨elem, _, _, rfl, rfl, _, _, w, rfl, ⟨n, hn, rfl, rfl⟩, h⟩
        rw [← List.append_assoc]
        split at h
        · next hlong =>
          obtain ⟨units, rfl, hcount, h⟩ := h
          have hlength : toInt (long n) = units.length := by
            have hpos := hlong.2
            have hthreshold := hlong.1
            omega
          rw [hlength] at hlong ⊢
          exact Encoded.summary hn hlength hlong h
        · next hkeep =>
          obtain ⟨hneg, hroom, list, rfl, hcount, h⟩ := h
          have hlength : toInt (long n) = list.length := by omega
          rw [hlength] at hkeep
          exact Encoded.array hn hlength hkeep (by omega) h
      · intro h
        cases h with
        | number ht => cases ht
        | array hn hcount hkeep hroom h =>
          refine ⟨_, _, _, List.append_assoc .., rfl, _, _, _, rfl, ⟨_, hn, rfl, rfl⟩, ?_⟩
          rw [hcount, if_neg hkeep]
          exact ⟨by omega, hroom, _, rfl, rfl, h⟩
        | summary hn hcount hlong h =>
          refine ⟨_, _, _, List.append_assoc .., rfl, _, _, _, rfl, ⟨_, hn, rfl, rfl⟩, ?_⟩
          rw [hcount, if_pos hlong]
          exact ⟨_, rfl, rfl, h⟩

/-! ## The file -/

/-- A key, its type and its value. -/
inductive EncodesPair (cfg : Config) (room depth : Nat) :
    Option (Text × MetadataValue) → List UInt8 → Prop
  | skipped {key : Text} {t : MetadataType} {keyBytes bytes : List UInt8}
      (hkey : key ∈ cfg.skipKeys) (hk : EncodesText room key keyBytes) (h : Passes depth t bytes) :
      EncodesPair cfg room depth none (keyBytes ++ leBytes 4 t.code ++ bytes)
  | kept {key : Text} {t : MetadataType} {v : MetadataValue} {keyBytes bytes : List UInt8}
      (hkey : key ∉ cfg.skipKeys) (hk : EncodesText room key keyBytes) (h : Encodes cfg room depth t v bytes) :
      EncodesPair cfg room depth (some (key, v)) (keyBytes ++ leBytes 4 t.code ++ bytes)

/-- The header, and as many pairs as it says. What a later pair says about a key counts. -/
inductive EncodesFile (cfg : Config) (room depth : Nat) : GgufMetadata → List UInt8 → Prop
  | mk (version : GgufVersion) {tensorCount kvCount : Nat}
      {pairs : List (Option (Text × MetadataValue))} {bytes : List UInt8}
      (ht : tensorCount < 2 ^ 64) (hk : kvCount < 2 ^ 64)
      (hcount : pairs.length = (toInt (long kvCount)).toNat)
      (hmodels : baseModelCount pairs.reduceOption.reverse ≤ room)
      (h : Each (EncodesPair cfg room depth) pairs bytes) :
      EncodesFile cfg room depth
        (buildStructured pairs.reduceOption.reverse version (long tensorCount) (long kvCount))
        (magic ++ leBytes 4 version.code ++ leBytes 8 tensorCount ++ leBytes 8 kvCount ++ bytes)

theorem readPair_recognises (cfg : Config) (room depth : Nat) :
    Recognises (readPair cfg room depth) (EncodesPair cfg room depth) := by
  refine recognises_congr (recognises_bind (readString_recognises room) fun key =>
    recognises_bind readType_recognises fun t =>
      recognises_ite (recognises_bind_pure (recognises_skipValue depth t) fun _ => none)
        (recognises_bind_pure (recognises_parseValue cfg room depth t) fun v => some (key, v)))
    fun pair used => ?_
  constructor
  · rintro ⟨key, kb, _, rfl, hkb, t, _, bytes, rfl, rfl, h⟩
    rw [← List.append_assoc]
    split at h
    · next hkey =>
      obtain ⟨_, rfl, h⟩ := h
      exact EncodesPair.skipped hkey hkb h
    · next hkey =>
      obtain ⟨v, rfl, h⟩ := h
      exact EncodesPair.kept hkey hkb h
  · intro h
    cases h with
    | skipped hkey hk h =>
      refine ⟨_, _, _, List.append_assoc .., hk, _, _, _, rfl, rfl, ?_⟩
      rw [if_pos hkey]
      exact ⟨(), rfl, h⟩
    | kept hkey hk h =>
      refine ⟨_, _, _, List.append_assoc .., hk, _, _, _, rfl, rfl, ?_⟩
      rw [if_neg hkey]
      exact ⟨_, rfl, h⟩

theorem readMetaMap_recognises (cfg : Config) (room depth : Nat) (kvCnt : Int) :
    Recognises (readMetaMap cfg room depth kvCnt) fun entries used => ∃ pairs,
      entries = pairs.reduceOption.reverse ∧ pairs.length = (toInt kvCnt).toNat ∧
        Each (EncodesPair cfg room depth) pairs used :=
  recognises_bind_pure (recognises_times (readPair_recognises cfg room depth) _) fun pairs =>
    pairs.reduceOption.reverse

/-- A byte that is missing makes the last one missing. -/
theorem readLEUInt32_recognises :
    Recognises readLEUInt32 fun n used => used.length = 4 ∧ n = littleEndianBytesToInt used := by
  intro bytes n s
  match bytes with
  | [] | [_] | [_, _] | [_, _, _] =>
    constructor
    · intro h
      cases h
    · rintro ⟨used, rest, hbytes, -, hlength, -⟩
      have := congrArg List.length hbytes
      rw [List.length_append, hlength] at this
      simp at this
      omega
  | b0 :: b1 :: b2 :: b3 :: tail =>
    have hrun : readLEUInt32 (plain (b0 :: b1 :: b2 :: b3 :: tail)) =
      .ok (littleEndianBytesToInt [b0, b1, b2, b3], plain tail) := rfl
    rw [hrun]
    constructor
    · intro h
      cases h
      exact ⟨[b0, b1, b2, b3], tail, rfl, rfl, rfl, rfl⟩
    · rintro ⟨used, rest, hbytes, rfl, hlength, rfl⟩
      obtain ⟨rfl, rfl⟩ : [b0, b1, b2, b3] = used ∧ tail = rest :=
        List.append_inj (show [b0, b1, b2, b3] ++ tail = used ++ rest from hbytes) hlength.symm
      rfl

theorem ensureMagic_recognises :
    Recognises ensureMagic fun ok used => used.length = 4 ∧ ok = (used == magic) := by
  refine recognises_congr (recognises_bind_pure (readBytes_recognises _ (by decide)) fun bytes =>
    bytes == magic) fun ok used => ?_
  constructor
  · rintro ⟨_, rfl, rfl, hlength⟩
    exact ⟨hlength, rfl⟩
  · rintro ⟨hlength, rfl⟩
    exact ⟨used, rfl, rfl, hlength⟩

theorem readVersion_recognises (code : Int) :
    Recognises (match GgufVersion.fromCode code with
      | none => fail (utf16 "Unknown GGUF version code " ++ intText code)
      | some version => pure version) fun version used => code = version.code ∧ used = [] := by
  have hfind : ∀ version, GgufVersion.fromCode code = some version ↔ code = version.code := by
    intro version
    refine find?_code_iff (fun version => ?_) (fun a b hab => ?_)
    · cases version <;> simp [GgufVersion.entries]
    · cases a <;> cases b <;> first | rfl | cases hab
  split
  · next hnone =>
    refine recognises_congr (recognises_throw _) fun version used => ?_
    rw [← hfind, hnone]
    simp
  · next version hsome =>
    refine recognises_congr (recognises_pure version) fun version' used => ?_
    rw [← hfind, hsome, Option.some.injEq, eq_comm]

theorem ensureMagicAndVersion_recognises :
    Recognises ensureMagicAndVersion fun version used =>
      used = magic ++ leBytes 4 version.code := by
  refine recognises_congr (recognises_bind ensureMagic_recognises fun ok =>
    recognises_ite (recognises_bind readLEUInt32_recognises readVersion_recognises)
      (recognises_throw Thrown.invalidFileFormat)) fun version used => ?_
  have hcode : version.code < 2 ^ 31 := by cases version <;> decide
  constructor
  · rintro ⟨ok, u, _, rfl, ⟨hu, rfl⟩, h⟩
    split at h
    · next hmagic =>
      obtain ⟨_, w, _, rfl, ⟨hw, rfl⟩, heq, rfl⟩ := h
      have hlt := leNat_lt w
      rw [hw] at hlt
      unfold littleEndianBytesToInt at heq
      have hnat : leNat w = version.code := eq_of_bmod_eq (by omega) heq
      rw [beq_iff_eq.mp hmagic, ← hnat, ← hw, leBytes_leNat, List.append_nil]
    · exact h.elim
  · rintro rfl
    refine ⟨true, magic, _, rfl, ⟨rfl, rfl⟩, ?_⟩
    rw [if_pos rfl]
    refine ⟨_, _, [], (List.append_nil _).symm, ⟨length_leBytes .., rfl⟩, ?_, rfl⟩
    unfold littleEndianBytesToInt
    rw [leNat_leBytes (show version.code < 256 ^ 4 by omega)]
    exact (bmod_eq_self_iff (by omega)).mpr hcode

/-- **What is read as a file.** -/
theorem readStructuredMetadata_eq_ok_iff (cfg : Config) (room depth : Nat) (bytes : List UInt8)
    (m : GgufMetadata) (s : InputStream) :
    readStructuredMetadata cfg room depth (plain bytes) = .ok (m, s) ↔
      ∃ file rest, bytes = file ++ rest ∧ s = plain rest ∧ EncodesFile cfg room depth m file := by
  refine recognises_congr (recognises_bind ensureMagicAndVersion_recognises fun version =>
    recognises_bind readLittleLong_recognises fun tensorCount =>
      recognises_bind readLittleLong_recognises fun kvCount =>
        recognises_bind (readMetaMap_recognises cfg room depth kvCount) fun entries =>
          recognises_allocating (recognises_pure
            (buildStructured entries version tensorCount kvCount)) room _) (fun m used => ?_) bytes m s
  constructor
  · rintro ⟨version, _, _, rfl, rfl, _, _, _, rfl, ⟨tensorCount, ht, rfl, rfl⟩, _, _, _, rfl,
      ⟨kvCount, hk, rfl, rfl⟩, _, body, _, rfl, ⟨pairs, rfl, hcount, h⟩, hmodels, rfl, rfl⟩
    have hfile := EncodesFile.mk version ht hk hcount hmodels h
    simp only [List.append_assoc, List.append_nil] at hfile ⊢
    exact hfile
  · rintro ⟨version, ht, hk, hcount, hmodels, h⟩
    refine ⟨_, _, _, ?_, rfl, _, _, _, rfl, ⟨_, ht, rfl, rfl⟩, _, _, _, rfl, ⟨_, hk, rfl, rfl⟩,
      _, _, [], rfl, ⟨_, rfl, hcount, h⟩, hmodels, rfl, rfl⟩
    simp only [List.append_assoc, List.append_nil]

/-! ## Skipping and summarising -/

/-- A reader that keeps everything. -/
def keepAll : Config := { skipKeys := [], arraySummariseThreshold := -1 }

theorem not_summarises_keepAll (count : Int) : ¬ keepAll.summarises count := by
  rintro ⟨h, -⟩
  exact absurd h (by decide)

/-- A value with its long arrays summarised. -/
def summarise (cfg : Config) : MetadataValue → MetadataValue
  | .arrayVal elem elements =>
    if cfg.summarises elements.length then .stringVal (summary elem elements.length)
    else .arrayVal elem (elements.map (summarise cfg))
  | v => v

/-- What is left of an entry. -/
def keepEntry (cfg : Config) (entry : Text × MetadataValue) : Option (Text × MetadataValue) :=
  if entry.1 ∈ cfg.skipKeys then none else some (entry.1, summarise cfg entry.2)

theorem passes_of_encodes {cfg : Config} {room depth : Nat} {t : MetadataType} {v : MetadataValue}
    {bytes : List UInt8} (h : Encodes cfg room depth t v bytes) : Passes depth t bytes := by
  induction depth generalizing t v bytes with
  | zero => exact h.elim
  | succ depth ih =>
    cases h with
    | number ht hn => exact Passed.number ht (length_leBytes ..)
    | bool b => exact Passed.bool _
    | string h =>
      obtain ⟨bytes, hlength⟩ := h
      refine Passed.string (by omega) ?_
      rw [long_of_lt (by omega), Int.toNat_natCast]
    | array hn hcount _ _ h =>
      refine Passed.array hn ?_ (h.map (f := fun _ => ()) fun v u hv => ih hv)
      rw [hcount, List.length_map, Int.toNat_natCast]
    | summary hn hcount _ h =>
      refine Passed.array hn ?_ h
      rw [hcount, Int.toNat_natCast]

theorem encodes_summarise (cfg : Config) {room depth : Nat} {t : MetadataType} {v : MetadataValue}
    {bytes : List UInt8} (h : Encodes keepAll room depth t v bytes) :
    Encodes cfg room depth t (summarise cfg v) bytes := by
  induction depth generalizing t v bytes with
  | zero => exact h.elim
  | succ depth ih =>
    cases h with
    | @number t width make n ht hn =>
      have hsame : summarise cfg (make n) = make n := by
        cases t <;> cases ht <;> rw [summarise] <;> simp
      rw [hsame]
      exact Encoded.number ht hn
    | bool b =>
      rw [summarise]
      · exact Encoded.bool b
      · simp
    | string h =>
      rw [summarise]
      · exact Encoded.string h
      · simp
    | @array elem n elements bytes hn hcount _ hroom h =>
      rw [summarise]
      by_cases hlong : cfg.summarises elements.length
      · rw [if_pos hlong]
        have hlength : (elements.map fun _ => ()).length = elements.length := List.length_map ..
        have hpassed : Each (fun (_ : Unit) => Passes depth elem) (elements.map fun _ => ()) bytes :=
          h.map (f := fun _ => ()) (M := fun _ => Passes depth elem) fun v u hv =>
            passes_of_encodes hv
        rw [← hlength] at hcount hlong ⊢
        exact Encoded.summary hn hcount hlong hpassed
      · rw [if_neg hlong]
        refine Encoded.array hn ?_ ?_ ?_ (h.map fun v u hv => ih hv)
        · rw [List.length_map]
          exact hcount
        · rw [List.length_map]
          exact hlong
        · rw [List.length_map]
          exact hroom
    | summary _ _ hlong _ => exact absurd hlong (not_summarises_keepAll _)

theorem encodesPair_keepEntry (cfg : Config) {room depth : Nat} {pair : Option (Text × MetadataValue)}
    {bytes : List UInt8} (h : EncodesPair keepAll room depth pair bytes) :
    EncodesPair cfg room depth (pair.bind (keepEntry cfg)) bytes := by
  cases h with
  | skipped hkey => exact absurd hkey (by simp [keepAll])
  | @kept key t v _ _ _ hk h =>
    rw [Option.bind_some, keepEntry]
    by_cases hkey : key ∈ cfg.skipKeys
    · rw [if_pos hkey]
      exact EncodesPair.skipped hkey hk (passes_of_encodes h)
    · rw [if_neg hkey]
      exact EncodesPair.kept hkey hk (encodes_summarise cfg h)

/-- **Skipping keys and summarising arrays changes nothing else.** Where everything can be kept, a
reader that skips and summarises gets as far in the stream, and has the same entries. -/
theorem readMetaMap_of_keepAll (cfg : Config) (room depth : Nat) (kvCnt : Int) (bytes : List UInt8)
    (entries : MetaMap) (s : InputStream)
    (h : readMetaMap keepAll room depth kvCnt (plain bytes) = .ok (entries, s)) :
    readMetaMap cfg room depth kvCnt (plain bytes) = .ok (entries.filterMap (keepEntry cfg), s) := by
  obtain ⟨used, rest, hbytes, hs, pairs, rfl, hcount, heach⟩ :=
    (readMetaMap_recognises keepAll room depth kvCnt _ _ _).mp h
  refine (readMetaMap_recognises cfg room depth kvCnt _ _ _).mpr ⟨used, rest, hbytes, hs,
    pairs.map fun pair => pair.bind (keepEntry cfg), ?_, ?_,
    heach.map fun pair u hpair => encodesPair_keepEntry cfg hpair⟩
  · rw [List.filterMap_reverse]
    unfold List.reduceOption
    rw [List.filterMap_filterMap, List.filterMap_map]
    rfl
  · rw [List.length_map]
    exact hcount

/-- An entry whose key is skipped. -/
theorem readMetaMap_of_keepAll_skipped :
    readMetaMap { skipKeys := [decodeUtf8 [0x6B]], arraySummariseThreshold := 1000 } 1 1 1
      (plain (leBytes 8 1 ++ [0x6B] ++ leBytes 4 7 ++ [1])) = .ok ([], plain []) := by
  have hpair : EncodesPair keepAll 1 1 (some (decodeUtf8 [0x6B], .bool true))
      (leBytes 8 1 ++ [0x6B] ++ leBytes 4 7 ++ [1]) :=
    EncodesPair.kept (t := .bool) (by simp [keepAll]) (EncodesText.mk _ (by decide) (by decide))
      (Encoded.bool true)
  have heach := Each.cons hpair Each.nil
  rw [List.append_nil] at heach
  have hcount : 1 = (toInt 1).toNat := by
    unfold toInt
    decide
  exact readMetaMap_of_keepAll _ 1 1 1 _ [(decodeUtf8 [0x6B], .bool true)] (plain [])
    ((readMetaMap_recognises keepAll 1 1 1 _ _ _).mpr ⟨_, [], (List.append_nil _).symm, rfl,
      [some (decodeUtf8 [0x6B], .bool true)], rfl, hcount, heach⟩)

end Kaede.Gguf
