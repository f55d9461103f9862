import Kaede.Properties.GgufFormat

/-!
# The metadata reader on any stream

A stream may answer with fewer bytes than it is asked for, skip nothing, skip beyond its end, or
fail.

* `readStructuredMetadata_answers` — the metadata does not depend on how the stream answers, as long
  as it does not skip beyond its end
* `readStructuredMetadata_accepts` — what is accepted starts a file of the format
* `readStructuredMetadata_throws` — with room on the stack for the size of the file, the reader
  throws an `IOException`, rejects the length of an array, or runs out of memory
-/

namespace Kaede.Gguf

open Infra Infra.Reader InputStream

/-! ## Short answers -/

/-- Reads the same, or throws an `IOException`. -/
abbrev Robust {α : Type} (x : Read α) : Prop := Steady Thrown.IsIOException x

theorem isIOException_streamFailure : Thrown.streamFailure.IsIOException := trivial

theorem isIOException_ioException (message : Text) : (Thrown.ioException message).IsIOException :=
  trivial

theorem robust_readBytes (message : String) {n : Nat} (hn : 0 < n) :
    Robust (readBytes message n) :=
  ⟨_, (readExactly_refines isIOException_streamFailure (isIOException_ioException _) hn).completes
    (local_takeBytes _ n)⟩

theorem robust_readByte (message : String) : Robust (readByte message) :=
  steady_readByte isIOException_streamFailure

theorem robust_readFully (len : Nat) : Robust (readFully len) :=
  ⟨_, (readFully_refines isIOException_streamFailure _ len).completes (local_takeBytes _ len)⟩

theorem robust_skipFully (n : Int) : Robust (skipFully n) :=
  ⟨_, skipFully_completes isIOException_streamFailure (isIOException_ioException _) n.toNat⟩

theorem robust_readLittleLong : Robust readLittleLong :=
  steady_bind (robust_readFully 8) fun _ => steady_pure _

theorem robust_fromCode (code : Int) : Robust (fromCode code) := by
  rw [fromCode]
  split
  · exact steady_throw _
  · exact steady_pure _

theorem robust_readType : Robust readType :=
  steady_bind (robust_readBytes _ (by decide)) fun _ => robust_fromCode _

theorem robust_allocating {α : Type} {x : Read α} (hx : Robust x) (room size : Nat) :
    Robust (allocating room size x) :=
  steady_ite (steady_throw _) hx

theorem robust_readBuffer (room len : Nat) : Robust (readBuffer room len) :=
  robust_allocating (steady_ite (steady_pure _) (robust_readFully len)) room len

theorem robust_readString (room : Nat) : Robust (readString room) :=
  steady_bind robust_readLittleLong fun _ => steady_ite (steady_throw _)
    (steady_bind (robust_readBuffer room _) fun _ => steady_pure _)

theorem robust_skipValue (depth : Nat) (t : MetadataType) : Robust (skipValue depth t) := by
  induction depth generalizing t with
  | zero => exact steady_throw _
  | succ depth ih =>
    have hstring : Robust (skipValue (depth + 1) .string) :=
      steady_bind robust_readLittleLong robust_skipFully
    have harray : Robust (skipValue (depth + 1) .array) :=
      steady_bind robust_readType fun elem => steady_bind robust_readLittleLong fun _ =>
        steady_bind (steady_times (ih elem) _) fun _ => steady_pure _
    cases t with
    | string => exact hstring
    | array => exact harray
    | _ => exact robust_skipFully _

theorem robust_parseValue (cfg : Config) (room depth : Nat) (t : MetadataType) :
    Robust (parseValue cfg room depth t) := by
  induction depth generalizing t with
  | zero => exact steady_throw _
  | succ depth ih =>
    have hnumber : ∀ (message : String) {n : Nat} (make : List UInt8 → MetadataValue), 0 < n →
        Robust (do let bytes ← readBytes message n; pure (make bytes)) := by
      intro message n make hn
      exact steady_bind (robust_readBytes message hn) fun _ => steady_pure _
    cases t with
    | uint8 => exact steady_bind (robust_readByte _) fun _ => steady_pure _
    | int8 => exact steady_bind (robust_readByte _) fun _ => steady_pure _
    | uint16 => exact hnumber _ _ (by decide)
    | int16 => exact hnumber _ _ (by decide)
    | uint32 => exact hnumber _ _ (by decide)
    | int32 => exact hnumber _ _ (by decide)
    | float32 => exact hnumber _ _ (by decide)
    | uint64 => exact hnumber _ _ (by decide)
    | int64 => exact hnumber _ _ (by decide)
    | float64 => exact hnumber _ _ (by decide)
    | bool =>
      exact steady_bind (robust_readByte _) fun _ => steady_ite (steady_throw _) (steady_pure _)
    | string => exact steady_bind (robust_readString room) fun _ => steady_pure _
    | array =>
      refine steady_bind robust_readType fun elem => steady_bind robust_readLittleLong fun _ => ?_
      refine steady_ite ?_ (steady_ite (steady_throw _) ?_)
      · exact steady_bind (steady_times (robust_skipValue depth elem) _) fun _ => steady_pure _
      · exact robust_allocating (steady_bind (steady_times (ih elem) _) fun _ => steady_pure _) room _

theorem robust_readPair (cfg : Config) (room depth : Nat) : Robust (readPair cfg room depth) := by
  refine steady_bind (robust_readString room) fun key => steady_bind robust_readType fun t => ?_
  refine steady_ite ?_ ?_
  · exact steady_bind (robust_skipValue depth t) fun _ => steady_pure _
  · exact steady_bind (robust_parseValue cfg room depth t) fun _ => steady_pure _

/-- Four bytes, and the number that they are. -/
def takeLEUInt32 (bytes : List UInt8) : Except Thrown (Int × List UInt8) :=
  (takeBytes (fun _ => .ioException (utf16 "Unexpected EOF while reading UInt32")) 4 bytes).map
    fun r => (littleEndianBytesToInt r.1, r.2)

theorem local_takeLEUInt32 : Local takeLEUInt32 := by
  intro bytes n rest h more
  rcases htake : takeBytes _ 4 bytes with e | ⟨bs, left⟩
  · rw [takeLEUInt32, htake] at h
    cases h
  · rw [takeLEUInt32, htake] at h
    cases h
    rw [takeLEUInt32, local_takeBytes _ 4 bytes bs left htake more]
    rfl

/-- The stream is asked for each byte on its own, whether or not there was one before it. -/
theorem readLEUInt32_refines : Refines Thrown.IsIOException readLEUInt32 takeLEUInt32 := by
  have hone : Refines Thrown.IsIOException (readOne .streamFailure) _ :=
    readOne_refines isIOException_streamFailure
  refine (refines_bind hone fun b0 => refines_bind hone fun b1 => refines_bind hone fun b2 =>
    refines_bind (q := fun b3 bytes =>
      b3.elim (.error (.ioException (utf16 "Unexpected EOF while reading UInt32"))) fun b3 =>
        .ok (littleEndianBytesToInt [b0.getD 0xFF, b1.getD 0xFF, b2.getD 0xFF, b3], bytes))
      hone fun b3 s => ?_).congr fun bytes => ?_
  · cases b3 with
    | none => exact Or.inr (Follows.of_error rfl rfl)
    | some b3 => exact Or.inr (Follows.of_ok (k := 0) rfl rfl)
  · rcases bytes with _ | ⟨b0, _ | ⟨b1, _ | ⟨b2, _ | ⟨b3, rest⟩⟩⟩⟩ <;> rfl

theorem robust_readLEUInt32 : Robust readLEUInt32 :=
  ⟨_, readLEUInt32_refines.completes local_takeLEUInt32⟩

theorem robust_ensureMagicAndVersion : Robust ensureMagicAndVersion := by
  refine steady_bind (steady_bind (robust_readBytes _ (by decide)) fun _ => steady_pure _) fun ok =>
    steady_ite (steady_bind robust_readLEUInt32 fun code => ?_) (steady_throw _)
  split
  · exact steady_throw _
  · exact steady_pure _

theorem robust_readMetaMap (cfg : Config) (room depth : Nat) (kvCnt : Int) :
    Robust (readMetaMap cfg room depth kvCnt) :=
  steady_bind (steady_times (robust_readPair cfg room depth) _) fun _ => steady_pure _

theorem robust_readStructuredMetadata (cfg : Config) (room depth : Nat) :
    Robust (readStructuredMetadata cfg room depth) :=
  steady_bind robust_ensureMagicAndVersion fun _ => steady_bind robust_readLittleLong fun _ =>
    steady_bind robust_readLittleLong fun _ =>
      steady_bind (robust_readMetaMap cfg room depth _) fun _ =>
        robust_allocating (steady_pure _) room _

/-- **The metadata does not depend on how the stream answers.** Either an `IOException` is thrown, or
the same is read, and as much of the stream, as where every answer is full, and whatever bytes stand
where the stream skips beyond its end. -/
theorem readStructuredMetadata_answers (cfg : Config) (room depth : Nat) (s : InputStream) :
    (∃ e, e.IsIOException ∧ readStructuredMetadata cfg room depth s = .error e) ∨
      ∃ n, (0 < n → ∃ i, s.answers i = .past) ∧ ∀ missing : List UInt8, missing.length = n →
        (readStructuredMetadata cfg room depth s).map (fun r => (r.1, r.2.bytes)) =
          (readStructuredMetadata cfg room depth (plain (s.bytes ++ missing))).map
            fun r => (r.1, r.2.bytes) :=
  ((robust_readStructuredMetadata cfg room depth).apply s).imp_left And.right

/-! ## What is accepted -/

/-- A file that breaks off where a value of 100 bytes is skipped. -/
def truncatedFile : List UInt8 :=
  magic ++ leBytes 4 3 ++ leBytes 8 0 ++ leBytes 8 1 ++
    (leBytes 8 23 ++ encodeUtf8 "tokenizer.chat_template" ++ leBytes 4 8 ++ leBytes 8 100)

-- it is rejected, but not where a skip goes beyond the end
example :
    ((readStructuredMetadata defaultConfig 1000 1 (plain truncatedFile)).toOption.map
        fun r => r.2.bytes) = none ∧
      ((readStructuredMetadata defaultConfig 1000 1
        { bytes := truncatedFile, answers := fun _ => .past }).toOption.map
          fun r => r.2.bytes) = some [] := by
  decide +kernel

/-! ## Exceptions -/

/-- What a file can make the reader throw. -/
def FileError (room : Nat) (e : Thrown) : Prop :=
  e.IsIOException ∨ (∃ capacity < 0, e = .illegalCapacity capacity) ∨
    ∃ size, room < size ∧ size ≤ 2147483647 ∧ e = .outOfMemory size

variable {room : Nat}

theorem fileError_io {e : Thrown} (h : e.IsIOException) : FileError room e := Or.inl h

theorem fileError_fail (message : Text) : FileError room (.ioException message) := Or.inl trivial

theorem shrinks_allocating {α : Type} {x : Read α} {n m size : Nat} (hsize : size ≤ 2147483647)
    (hx : Shrinks n m (FileError room) x) :
    Shrinks n m (FileError room) (allocating room size x) :=
  shrinks_ite (fun hroom => shrinks_throw (Or.inr (Or.inr ⟨size, hroom, hsize, rfl⟩))) fun _ => hx

theorem toInt_le (n : Int) : (toInt n).toNat ≤ 2147483647 := by
  have hlt := Int.bmod_lt (x := n) (m := 2 ^ 32) (by decide)
  unfold toInt
  omega

theorem shrinks_readBytes {n : Nat} (message : String) {k : Nat} (hk : 0 < k) :
    Shrinks n (n - k) (FileError room) (readBytes message k) :=
  shrinks_takeBytes (readExactly_refines isIOException_streamFailure (isIOException_ioException _) hk)
    (fun _ => fileError_io) fun _ => fileError_fail _

theorem shrinks_readFully (n len : Nat) : Shrinks n (n - len) (FileError room) (readFully len) :=
  shrinks_takeBytes (readFully_refines isIOException_streamFailure _ len)
    (fun _ => fileError_io) fun _ => fileError_fail _

theorem shrinks_skipFully (n : Nat) (len : Int) : Shrinks n n (FileError room) (skipFully len) :=
  Reader.shrinks_skipFully (fileError_io isIOException_streamFailure) (fileError_fail _)
    (fileError_fail _) len.toNat

theorem shrinks_readByte' (n : Nat) (message : String) :
    Shrinks n n (FileError room) (readByte message) :=
  shrinks_readByte (fileError_io isIOException_streamFailure) (fileError_fail _)

theorem shrinks_readLittleLong (n : Nat) : Shrinks n (n - 8) (FileError room) readLittleLong :=
  shrinks_bind (shrinks_readFully n 8) fun _ => shrinks_pure _

theorem shrinks_fromCode (n : Nat) (code : Int) : Shrinks n n (FileError room) (fromCode code) := by
  rw [fromCode]
  split
  · exact shrinks_throw (fileError_fail _)
  · exact shrinks_pure _

theorem shrinks_readType (n : Nat) : Shrinks n (n - 4) (FileError room) readType :=
  shrinks_bind (shrinks_readBytes _ (by decide)) fun _ => shrinks_fromCode _ _

theorem shrinks_readBuffer (n : Nat) {len : Nat} (hlen : len ≤ 2147483647) :
    Shrinks n n (FileError room) (readBuffer room len) :=
  shrinks_allocating hlen (shrinks_ite (fun _ => shrinks_pure _) fun _ =>
    shrinks_mono (shrinks_readFully n len) (Nat.sub_le n len))

theorem shrinks_readString (n : Nat) : Shrinks n n (FileError room) (readString room) := by
  refine shrinks_mono (k := n) (m := n - 8) ?_ (Nat.sub_le n 8)
  refine shrinks_bind (shrinks_readLittleLong n) fun _ => ?_
  refine shrinks_ite (fun _ => shrinks_throw (fileError_fail _)) fun hlen => ?_
  exact shrinks_bind (shrinks_readBuffer _ (by omega)) fun _ => shrinks_pure _

/-- Each array takes 12 bytes before its elements, so the nesting is bounded by the size. -/
theorem shrinks_skipValue {n depth : Nat} (h : n ≤ 12 * depth) (t : MetadataType) :
    Shrinks n n (FileError room) (skipValue depth t) := by
  induction depth generalizing n t with
  | zero =>
    intro s hs
    omega
  | succ depth ih =>
    have hstring : Shrinks n n (FileError room) (skipValue (depth + 1) .string) :=
      shrinks_mono (shrinks_bind (shrinks_readLittleLong n) fun len => shrinks_skipFully _ len)
        (Nat.sub_le n 8)
    have harray : Shrinks n n (FileError room) (skipValue (depth + 1) .array) := by
      refine shrinks_mono (m := n - 4 - 8) ?_ (by omega)
      refine shrinks_bind (shrinks_readType n) fun elem => ?_
      refine shrinks_bind (shrinks_readLittleLong _) fun _ => ?_
      exact shrinks_bind (shrinks_times (ih (by omega) elem) _) fun _ => shrinks_pure _
    cases t with
    | string => exact hstring
    | array => exact harray
    | _ => exact shrinks_skipFully n _

theorem shrinks_parseValue (cfg : Config) {n depth : Nat} (h : n ≤ 12 * depth) (t : MetadataType) :
    Shrinks n n (FileError room) (parseValue cfg room depth t) := by
  induction depth generalizing n t with
  | zero =>
    intro s hs
    omega
  | succ depth ih =>
    have hnumber : ∀ (message : String) {k : Nat} (make : List UInt8 → MetadataValue), 0 < k →
        Shrinks n n (FileError room) (do let bytes ← readBytes message k; pure (make bytes)) := by
      intro message k make hk
      exact shrinks_mono (shrinks_bind (shrinks_readBytes message hk) fun _ => shrinks_pure _)
        (Nat.sub_le n k)
    cases t with
    | uint8 => exact shrinks_bind (shrinks_readByte' n _) fun _ => shrinks_pure _
    | int8 => exact shrinks_bind (shrinks_readByte' n _) fun _ => shrinks_pure _
    | uint16 => exact hnumber _ _ (by decide)
    | int16 => exact hnumber _ _ (by decide)
    | uint32 => exact hnumber _ _ (by decide)
    | int32 => exact hnumber _ _ (by decide)
    | float32 => exact hnumber _ _ (by decide)
    | uint64 => exact hnumber _ _ (by decide)
    | int64 => exact hnumber _ _ (by decide)
    | float64 => exact hnumber _ _ (by decide)
    | bool =>
      refine shrinks_bind (shrinks_readByte' n _) fun _ => ?_
      exact shrinks_ite (fun _ => shrinks_throw (fileError_fail _)) fun _ => shrinks_pure _
    | string => exact shrinks_bind (shrinks_readString n) fun _ => shrinks_pure _
    | array =>
      refine shrinks_mono (m := n - 4 - 8) ?_ (by omega)
      refine shrinks_bind (shrinks_readType n) fun elem => ?_
      refine shrinks_bind (shrinks_readLittleLong _) fun len => ?_
      refine shrinks_ite (fun _ => ?_) fun _ => shrinks_ite (fun hneg => ?_) fun _ => ?_
      · exact shrinks_bind (shrinks_times (shrinks_skipValue (by omega) elem) _) fun _ =>
          shrinks_pure _
      · exact shrinks_throw (Or.inr (Or.inl ⟨_, hneg, rfl⟩))
      · exact shrinks_allocating (toInt_le _)
          (shrinks_bind (shrinks_times (ih (by omega) elem) _) fun _ => shrinks_pure _)

theorem shrinks_readPair (cfg : Config) {n depth : Nat} (h : n ≤ 12 * depth) :
    Shrinks n n (FileError room) (readPair cfg room depth) := by
  refine shrinks_bind (shrinks_readString n) fun key => ?_
  refine shrinks_bind (shrinks_mono (shrinks_readType n) (Nat.sub_le n 4)) fun t => ?_
  refine shrinks_ite (fun _ => ?_) fun _ => ?_
  · exact shrinks_bind (shrinks_skipValue h t) fun _ => shrinks_pure _
  · exact shrinks_bind (shrinks_parseValue cfg h t) fun _ => shrinks_pure _

theorem shrinks_readLEUInt32 (n : Nat) : Shrinks n n (FileError room) readLEUInt32 := by
  refine shrinks_of_refines readLEUInt32_refines (fun _ => fileError_io)
    (fun bytes a rest hlt h => ?_) fun bytes e h => ?_
  · rcases htake : takeBytes _ 4 bytes with e | ⟨bs, left⟩
    · rw [takeLEUInt32, htake] at h
      cases h
    · rw [takeLEUInt32, htake] at h
      cases h
      obtain ⟨used, rfl, -⟩ := takeBytes_eq_ok.mp htake
      rw [List.length_append] at hlt
      show left.length < n
      omega
  · rw [takeLEUInt32, takeBytes] at h
    split at h
    · cases h
    · cases h
      exact fileError_fail _

theorem shrinks_ensureMagicAndVersion (n : Nat) :
    Shrinks n n (FileError room) ensureMagicAndVersion := by
  refine shrinks_bind (m := n) ?_ fun ok => ?_
  · exact shrinks_mono (shrinks_bind (shrinks_readBytes _ (by decide)) fun _ => shrinks_pure _)
      (Nat.sub_le n 4)
  · refine shrinks_ite (fun _ => ?_) fun _ => shrinks_throw (Or.inl trivial)
    refine shrinks_bind (shrinks_readLEUInt32 n) fun code => ?_
    split
    · exact shrinks_throw (fileError_fail _)
    · exact shrinks_pure _

theorem baseModelCount_le (m : MetaMap) : baseModelCount m ≤ 2147483647 := by
  rw [baseModelCount, MetaMap.u32]
  split
  · rw [Option.getD_some]
    exact toInt_le _
  · rw [Option.getD_none, Int.toNat_zero]
    exact Nat.zero_le _

/-- **What the reader throws.** On a stream of fewer than 12 bytes for each call that the stack has
room for, the reader does not overflow the stack. What it allocates at once is as large as the stream
says, and what the heap has no room for fails. -/
theorem readStructuredMetadata_throws (cfg : Config) (room depth : Nat) (s : InputStream)
    (e : Thrown) (hdepth : s.bytes.length < 12 * depth)
    (h : readStructuredMetadata cfg room depth s = .error e) :
    e.IsIOException ∨ (∃ capacity < 0, e = .illegalCapacity capacity) ∨
      ∃ size, room < size ∧ size ≤ 2147483647 ∧ e = .outOfMemory size := by
  have hlong : Shrinks (12 * depth) (12 * depth) (FileError room) readLittleLong :=
    shrinks_mono (shrinks_readLittleLong _) (Nat.sub_le _ 8)
  have hread : Shrinks (12 * depth) (12 * depth) (FileError room)
      (readStructuredMetadata cfg room depth) := by
    refine shrinks_bind (shrinks_ensureMagicAndVersion _) fun _ => shrinks_bind hlong fun _ =>
      shrinks_bind hlong fun _ => ?_
    refine shrinks_bind (m := 12 * depth) ?_ fun entries =>
      shrinks_allocating (baseModelCount_le entries) (shrinks_pure _)
    exact shrinks_bind (shrinks_times (shrinks_readPair cfg (Nat.le_refl _)) _) fun _ =>
      shrinks_pure _
  exact (hread s hdepth).2 e h

theorem readLittleLong_leBytes {n : Nat} (hn : n < 2 ^ 64) (rest : List UInt8) :
    readLittleLong (plain (leBytes 8 n ++ rest)) = .ok (long n, plain rest) :=
  (readLittleLong_recognises _ _ _).mpr ⟨_, _, rfl, rfl, n, hn, rfl, rfl⟩

theorem readString_outOfMemory {len : Nat} (hlen : len ≤ 2147483647) (hroom : room < len)
    (rest : List UInt8) :
    readString room (plain (leBytes 8 len ++ rest)) = .error (.outOfMemory len) := by
  have hbuffer : readBuffer room len (plain rest) = .error (.outOfMemory len) := by
    rw [readBuffer, allocating, if_pos hroom, throw_apply]
  rw [readString, bind_of_ok (readLittleLong_leBytes (by omega) rest), long_of_lt (by omega),
    if_neg (by omega), Int.toNat_natCast]
  exact bind_of_error hbuffer

/-- The length of the first key alone can be too much. -/
theorem readStructuredMetadata_outOfMemory (cfg : Config) (depth : Nat) (version : GgufVersion)
    {tensorCount kvCount len : Nat} (ht : tensorCount < 2 ^ 64) (hk : kvCount < 2 ^ 64)
    (hcount : 0 < (toInt (long kvCount)).toNat) (hlen : len ≤ 2147483647) (hroom : room < len)
    (rest : List UInt8) :
    readStructuredMetadata cfg room depth (plain (magic ++ leBytes 4 version.code ++
      (leBytes 8 tensorCount ++ (leBytes 8 kvCount ++ (leBytes 8 len ++ rest))))) =
        .error (.outOfMemory len) := by
  have hversion := (ensureMagicAndVersion_recognises (magic ++ leBytes 4 version.code ++
    (leBytes 8 tensorCount ++ (leBytes 8 kvCount ++ (leBytes 8 len ++ rest)))) version _).mpr
      ⟨_, _, rfl, rfl, rfl⟩
  have hpair : readPair cfg room depth (plain (leBytes 8 len ++ rest)) =
      .error (.outOfMemory len) := by
    rw [readPair]
    exact bind_of_error (readString_outOfMemory hlen hroom rest)
  have hmap : readMetaMap cfg room depth (long kvCount) (plain (leBytes 8 len ++ rest)) =
      .error (.outOfMemory len) := by
    obtain ⟨count, hsucc⟩ := Nat.exists_eq_succ_of_ne_zero (Nat.ne_of_gt hcount)
    rw [readMetaMap, hsucc]
    apply bind_of_error
    rw [times]
    exact bind_of_error hpair
  rw [readStructuredMetadata, bind_of_ok hversion, bind_of_ok (readLittleLong_leBytes ht _),
    bind_of_ok (readLittleLong_leBytes hk _), bind_of_error hmap]

/-- A file of 32 bytes, which end after the length of the first key. -/
def hugeKeyFile : List UInt8 :=
  magic ++ leBytes 4 3 ++ (leBytes 8 0 ++ (leBytes 8 1 ++ (leBytes 8 2147483647 ++ [])))

theorem readStructuredMetadata_throws_hugeKeyFile :
    readStructuredMetadata defaultConfig 500000000 3 (plain hugeKeyFile) =
        .error (.outOfMemory 2147483647) ∧
      (Thrown.IsIOException (.outOfMemory 2147483647) ∨
        (∃ capacity < 0, Thrown.outOfMemory 2147483647 = .illegalCapacity capacity) ∨
        ∃ size, 500000000 < size ∧ size ≤ 2147483647 ∧
          Thrown.outOfMemory 2147483647 = .outOfMemory size) := by
  have hcount : 0 < (toInt (long 1)).toNat := by
    rw [long_of_lt (by decide)]
    unfold toInt
    decide
  have hread := readStructuredMetadata_outOfMemory defaultConfig 3 .validatedV3
    (show 0 < 2 ^ 64 by decide) (show 1 < 2 ^ 64 by decide) hcount
    (Nat.le_refl 2147483647) (show 500000000 < 2147483647 by decide) []
  exact ⟨hread, readStructuredMetadata_throws _ _ _ _ _ (by decide) hread⟩

end Kaede.Gguf
