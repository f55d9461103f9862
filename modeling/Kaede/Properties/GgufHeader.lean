import Kaede.Ai.ModelValidator

/-!
# Which GGUF headers are decoded

The validator reads 16 bytes. A header of version 3 takes 24, so its second count runs over the end
of the buffer. The counts of the older versions are read as signed numbers.

* `validate_iff` — the header is decoded exactly when the version is 1 or 2 and no count has its top
  bit set, and another magic number is always rejected
-/

namespace Kaede

open Infra

namespace ModelValidator

variable {file : ModelFile} {version tensorCount metadataKvCount : Nat} {rest bytes : List UInt8}

/-! ## The first 16 bytes -/

theorem readHeader_append {header : List UInt8} (h : header.length = 16) (rest : List UInt8) :
    readHeader (header ++ rest) = header := by
  have hpad : 16 - (header ++ rest).length = 0 := by
    rw [List.length_append]
    omega
  rw [readHeader, List.take_left' h, hpad, List.replicate_zero, List.append_nil]

theorem readHeader_of_long (h : 16 ≤ bytes.length) :
    readHeader bytes = bytes.take 4 ++ (bytes.drop 4).take 12 := by
  rw [readHeader, Nat.sub_eq_zero_of_le h, List.replicate_zero, List.append_nil,
    ← List.take_add]

/-! ## The header -/

theorem getInt_leBytes {n : Nat} (h : n < 2 ^ 32) (rest : List UInt8) :
    getInt (leBytes 4 n ++ rest) = .ok ((n : Int).bmod (2 ^ 32), rest) :=
  getSigned_leBytes none h rest

theorem getInt_small {n : Nat} (h : n < 2 ^ 31) (rest : List UInt8) :
    getInt (leBytes 4 n ++ rest) = .ok ((n : Int), rest) := by
  rw [getInt_leBytes (by omega), (bmod_eq_self_iff (by omega)).mpr h]

theorem getLong_leBytes {n : Nat} (h : n < 2 ^ 64) (rest : List UInt8) :
    getLong (leBytes 8 n ++ rest) = .ok ((n : Int).bmod (2 ^ 64), rest) :=
  getSigned_leBytes none h rest

/-- A header with the right magic number goes through as far as its numbers can be read. -/
theorem validateGgufHeader_of_reads {b₁ b₂ b₃ : List UInt8} {v t : Int}
    (hopen : file.opening = .ok ()) (hmagic : getInt (readHeader bytes) = .ok (ggufMagic, b₁))
    (hversion : getInt b₁ = .ok (v, b₂)) (ht : getCount v b₂ = .ok (t, b₃)) :
    validateGgufHeader file bytes =
      (getCount v b₃).map fun k =>
        { success := true, fileSize := bytes.length, version := v, tensorCount := t,
          metadataCount := k.1 } := by
  unfold validateGgufHeader
  rw [hopen, hmagic]
  simp only [bind, Except.bind, pure, Except.pure, ne_eq, not_true_eq_false, if_false, hversion, ht]
  cases getCount v b₃ <;> rfl

theorem validateGgufHeader_of_magic {m : Int} {b₁ : List UInt8} (hm : m ≠ ggufMagic)
    (hopen : file.opening = .ok ()) (hmagic : getInt (readHeader bytes) = .ok (m, b₁)) :
    validateGgufHeader file bytes =
      .ok (failure (utf16 "Invalid GGUF format. Magic number mismatch.")) := by
  unfold validateGgufHeader
  rw [hopen, hmagic]
  simp only [bind, Except.bind, pure, Except.pure, if_pos hm]

/-- In versions 1 and 2, the counts are read as signed numbers of four bytes. -/
theorem validateGgufHeader_old (hopen : file.opening = .ok ()) (hversion : version ≤ 2)
    (ht : tensorCount < 2 ^ 32) (hk : metadataKvCount < 2 ^ 32)
    (hbytes : bytes = ggufHeader ggufMagic version tensorCount metadataKvCount ++ rest) :
    validateGgufHeader file bytes =
      .ok { success := true, fileSize := bytes.length, version := version,
            tensorCount := (tensorCount : Int).bmod (2 ^ 32),
            metadataCount := (metadataKvCount : Int).bmod (2 ^ 32) } := by
  have hwidth : countWidth version = 4 := if_neg (by omega)
  have hcount : ∀ buffer, getCount version buffer = getInt buffer := fun _ => if_neg (by omega)
  have hheader : readHeader bytes = leBytes 4 ggufMagic ++ (leBytes 4 version ++
      (leBytes 4 tensorCount ++ (leBytes 4 metadataKvCount ++ []))) := by
    rw [hbytes, readHeader_append (by simp [ggufHeader, hwidth]), ggufHeader, hwidth]
    simp
  have hmagic : getInt (readHeader bytes) = .ok ((ggufMagic : Int), leBytes 4 version ++
      (leBytes 4 tensorCount ++ (leBytes 4 metadataKvCount ++ []))) := by
    rw [hheader, getInt_small (by decide)]
  have ht' : getCount version (leBytes 4 tensorCount ++ (leBytes 4 metadataKvCount ++ [])) =
      .ok ((tensorCount : Int).bmod (2 ^ 32), leBytes 4 metadataKvCount ++ []) := by
    rw [hcount, getInt_leBytes ht]
  rw [validateGgufHeader_of_reads hopen hmagic (getInt_small (by omega) _) ht', hcount,
    getInt_leBytes hk, Except.map]

/-- In version 3, the second count lies beyond the 16 bytes. -/
theorem validateGgufHeader_new (hopen : file.opening = .ok ()) (ht : tensorCount < 2 ^ 64)
    (hbytes : bytes = ggufHeader ggufMagic 3 tensorCount metadataKvCount ++ rest) :
    validateGgufHeader file bytes = .error none := by
  have hheader : readHeader bytes = leBytes 4 ggufMagic ++ (leBytes 4 3 ++
      (leBytes 8 tensorCount ++ [])) := by
    have hsplit : bytes = (leBytes 4 ggufMagic ++ leBytes 4 3 ++ leBytes 8 tensorCount) ++
        (leBytes 8 metadataKvCount ++ rest) := by
      rw [hbytes, ggufHeader]
      simp [countWidth]
    rw [hsplit, readHeader_append (by simp)]
    simp
  have hmagic : getInt (readHeader bytes) = .ok ((ggufMagic : Int), leBytes 4 3 ++
      (leBytes 8 tensorCount ++ [])) := by
    rw [hheader, getInt_small (by decide)]
  have hcount : ∀ buffer, getCount (3 : Nat) buffer = getLong buffer := fun _ => if_pos (by decide)
  have ht' : getCount (3 : Nat) (leBytes 8 tensorCount ++ []) =
      .ok ((tensorCount : Int).bmod (2 ^ 64), []) := by
    rw [hcount, getLong_leBytes ht]
  rw [validateGgufHeader_of_reads hopen hmagic (getInt_small (by decide) _) ht', hcount, getLong,
    getSigned_of_short none (by decide), Except.map]

/-- Another magic number is recognized, unless the file cannot be opened. -/
theorem validateGgufHeader_mismatch (hlength : 16 ≤ bytes.length)
    (hmagic : bytes.take 4 ≠ leBytes 4 ggufMagic) :
    (∃ message, validateGgufHeader file bytes = .error message) ∨
      ∃ error, validateGgufHeader file bytes = .ok (failure error) := by
  cases hopen : file.opening with
  | error message =>
    refine Or.inl ⟨message, ?_⟩
    unfold validateGgufHeader
    rw [hopen]
    rfl
  | ok _ =>
    have hfour : (bytes.take 4).length = 4 := by
      rw [List.length_take]
      omega
    have hbytes : leBytes 4 (leNat (bytes.take 4)) = bytes.take 4 := by
      have h := leBytes_leNat (bytes.take 4)
      rw [hfour] at h
      exact h
    have hlt : leNat (bytes.take 4) < 2 ^ 32 := by
      have h := leNat_lt (bytes.take 4)
      rw [hfour] at h
      omega
    have hread := getInt_leBytes hlt ((bytes.drop 4).take 12)
    rw [hbytes, ← readHeader_of_long hlength] at hread
    refine Or.inr ⟨_, validateGgufHeader_of_magic (fun heq => hmagic ?_) hopen hread⟩
    rw [← hbytes, eq_of_bmod_eq hlt heq]

/-! ## The file -/

/-- A file that passes the checks of its size and its name is judged by its header. -/
theorem validate_of_header (hcontent : file.content = some bytes)
    (hsize : minGgufSize ≤ bytes.length)
    (hname : endsWithIgnoreCase file.name (utf16 ".gguf") = true) :
    validate file =
      match validateGgufHeader file bytes with
      | .ok result => result
      | .error message =>
        failure (utf16 "Failed to read model file: " ++ message.getD (utf16 "null")) := by
  unfold validate
  rw [hcontent]
  dsimp only
  rw [if_neg (not_lt.mpr hsize)]
  exact if_neg (by simp [hname])

/-- The result says that the file is valid and reports these numbers. -/
def Decodes (result : ValidationResult) (version tensorCount metadataKvCount : Nat) : Prop :=
  result.success = true ∧ result.version = version ∧ result.tensorCount = tensorCount ∧
    result.metadataCount = metadataKvCount

instance (result : ValidationResult) (version tensorCount metadataKvCount : Nat) :
    Decidable (Decodes result version tensorCount metadataKvCount) :=
  inferInstanceAs (Decidable (_ ∧ _ ∧ _ ∧ _))

theorem not_decodes_failure (error : Text) :
    ¬ Decodes (failure error) version tensorCount metadataKvCount :=
  fun h => Bool.false_ne_true h.1

/--
**When a documented header is decoded.**

A file of sufficient size and with the right extension is decoded exactly when it can be opened, its
version is 1 or 2, and both counts fit into 31 bits. Another magic number is always rejected.
-/
theorem validate_iff (hname : endsWithIgnoreCase file.name (utf16 ".gguf") = true)
    (hcontent : file.content = some bytes) (hsize : minGgufSize ≤ bytes.length) :
    (∀ version tensorCount metadataKvCount rest,
      bytes = ggufHeader ggufMagic version tensorCount metadataKvCount ++ rest →
      1 ≤ version → version ≤ 3 → tensorCount < 256 ^ countWidth version →
      metadataKvCount < 256 ^ countWidth version →
      (Decodes (validate file) version tensorCount metadataKvCount ↔
        file.opening = .ok () ∧ version ≤ 2 ∧ tensorCount < 2 ^ 31 ∧ metadataKvCount < 2 ^ 31)) ∧
      (bytes.take 4 ≠ leBytes 4 ggufMagic → (validate file).success = false) := by
  have hvalidate := validate_of_header hcontent hsize hname
  constructor
  · intro version tensorCount metadataKvCount rest hbytes hone hthree ht hk
    cases hopen : file.opening with
    | error message =>
      have herror : validateGgufHeader file bytes = .error message := by
        unfold validateGgufHeader
        rw [hopen]
        rfl
      rw [hvalidate, herror]
      exact iff_of_false (not_decodes_failure _) fun h => by cases h.1
    | ok _ =>
      by_cases hold : version ≤ 2
      · have hwidth : countWidth version = 4 := if_neg (by omega)
        rw [hwidth] at ht hk
        have ht' : tensorCount < 2 ^ 32 := ht
        have hk' : metadataKvCount < 2 ^ 32 := hk
        rw [hvalidate, validateGgufHeader_old hopen hold ht' hk' hbytes]
        simp only [Decodes, bmod_eq_self_iff ht', bmod_eq_self_iff hk', hold, true_and]
      · have hversion : version = 3 := by omega
        subst hversion
        have ht' : tensorCount < 2 ^ 64 := ht
        rw [hvalidate, validateGgufHeader_new hopen ht' hbytes]
        exact iff_of_false (not_decodes_failure _) fun h => hold h.2.1
  · intro hmagic
    have hlength : 16 ≤ bytes.length := by
      unfold minGgufSize at hsize
      omega
    rw [hvalidate]
    rcases validateGgufHeader_mismatch hlength hmagic with ⟨message, h⟩ | ⟨error, h⟩ <;> rw [h]
    · rfl
    · rfl

/-! ### Two files -/

/-- A file of more than 512 KB that starts with a documented header. -/
def modelFile (version tensorCount metadataKvCount : Nat) : ModelFile where
  absolutePath := utf16 "/models/kaede.GGUF"
  name := utf16 "kaede.GGUF"
  content := some (ggufHeader ggufMagic version tensorCount metadataKvCount ++
    List.replicate 524288 0)
  opening := .ok ()

theorem minGgufSize_le_modelFile (version tensorCount metadataKvCount : Nat) :
    minGgufSize ≤ ((ggufHeader ggufMagic version tensorCount metadataKvCount ++
      List.replicate 524288 0).length : Int) := by
  rw [List.length_append, List.length_replicate, minGgufSize]
  omega

theorem validate_iff_version2 : Decodes (validate (modelFile 2 291 24)) 2 291 24 := by
  have hname : endsWithIgnoreCase (modelFile 2 291 24).name (utf16 ".gguf") = true := by decide
  have hlaw := validate_iff hname rfl (minGgufSize_le_modelFile 2 291 24)
  refine (hlaw.1 2 291 24 _ rfl (by decide) (by decide) ?_ ?_).mpr
    ⟨rfl, by decide, by decide, by decide⟩
  · decide
  · decide

/-- A file in the current version of the format is rejected. -/
theorem version3_rejected :
    (validate (modelFile 3 291 24)).error = some (utf16 "Failed to read model file: null") ∧
      ¬ Decodes (validate (modelFile 3 291 24)) 3 291 24 := by
  have hread := validateGgufHeader_new (show (modelFile 3 291 24).opening = .ok () from rfl)
    (show 291 < 2 ^ 64 by decide) (Eq.refl (ggufHeader ggufMagic 3 291 24 ++
      List.replicate 524288 0))
  rw [validate_of_header rfl (minGgufSize_le_modelFile 3 291 24) (by decide), hread]
  exact ⟨by decide, not_decodes_failure _⟩

end ModelValidator

end Kaede
