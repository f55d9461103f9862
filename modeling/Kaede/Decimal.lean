import Kaede.Text
import Mathlib.Data.Nat.Digits.Lemmas

/-!
# Numbers as text

Kotlin prints an integer with ASCII digits. It reads one with any decimal digits of Unicode.

* `readInt_intText` — reading undoes printing
* `toIntOrNull_intText` — within the range of `Int`, so does `toIntOrNull`
-/

namespace Kaede

/-! ## Printing -/

def digitUnit (d : Nat) : CodeUnit := UInt16.ofNat (0x30 + d)

def natText (n : Nat) : Text :=
  if n = 0 then [0x30] else (Nat.digits 10 n).reverse.map digitUnit

/-- `toString()` of an `Int` or a `Long`. -/
def intText (n : Int) : Text :=
  if n < 0 then 0x2D :: natText n.natAbs else natText n.natAbs

/-! ## Reading -/

/-- The zeros of Unicode among the UTF-16 code units. Each is followed by its other nine digits. -/
def digitZeros : List CodeUnit :=
  [0x0030, 0x0660, 0x06F0, 0x07C0, 0x0966, 0x09E6, 0x0A66, 0x0AE6, 0x0B66, 0x0BE6, 0x0C66, 0x0CE6,
    0x0D66, 0x0DE6, 0x0E50, 0x0ED0, 0x0F20, 0x1040, 0x1090, 0x17E0, 0x1810, 0x1946, 0x19D0, 0x1A80,
    0x1A90, 0x1B50, 0x1BB0, 0x1C40, 0x1C50, 0xA620, 0xA8D0, 0xA900, 0xA9D0, 0xA9F0, 0xAA50, 0xABF0,
    0xFF10]

/-- `digitOf(char, radix = 10)`. -/
def digitOf (c : CodeUnit) : Option Nat :=
  (digitZeros.find? fun zero => decide (zero ≤ c ∧ c < zero + 10)).map fun zero =>
    c.toNat - zero.toNat

/-- The value of a run of digits. -/
def readNat (s : Text) : Option Nat :=
  s.foldlM (fun n c => (digitOf c).map fun d => n * 10 + d) 0

/-- An optional sign, then digits. A first unit below `'0'` can only be the sign. -/
def readInt : Text → Option Int
  | [] => none
  | first :: rest =>
    if first < 0x30 then
      if rest.isEmpty then none
      else if first = 0x2D then (readNat rest).map fun n : Nat => -(n : Int)
      else if first = 0x2B then (readNat rest).map fun n : Nat => (n : Int)
      else none
    else (readNat (first :: rest)).map fun n : Nat => (n : Int)

/-- The range of Kotlin's `Int`. -/
def IsInt (n : Int) : Prop := -2147483648 ≤ n ∧ n ≤ 2147483647

instance (n : Int) : Decidable (IsInt n) := inferInstanceAs (Decidable (_ ∧ _))

/-- `String.toIntOrNull()`. -/
def toIntOrNull (s : Text) : Option Int :=
  (readInt s).bind fun n => if IsInt n then some n else none

/-! ## Reading undoes printing -/

theorem digitOf_digitUnit : ∀ d < 10, digitOf (digitUnit d) = some d := by decide

theorem not_digitUnit_lt : ∀ d < 10, ¬ digitUnit d < 0x30 := by decide

theorem readNat_concat (s : Text) (c : CodeUnit) :
    readNat (s ++ [c]) = (readNat s).bind fun n => (digitOf c).map fun d => n * 10 + d := by
  rw [readNat, List.foldlM_append]
  simp [readNat]

theorem readNat_digits {ds : List Nat} (h : ∀ d ∈ ds, d < 10) :
    readNat (ds.reverse.map digitUnit) = some (Nat.ofDigits 10 ds) := by
  induction ds with
  | nil => rfl
  | cons d ds ih =>
    obtain ⟨hd, hds⟩ := List.forall_mem_cons.mp h
    rw [List.reverse_cons, List.map_append, List.map_singleton, readNat_concat, ih hds,
      Option.bind_some, digitOf_digitUnit d hd, Option.map_some, Nat.ofDigits_cons]
    congr 1
    omega

theorem readNat_natText (n : Nat) : readNat (natText n) = some n := by
  unfold natText
  split
  · next hzero => rw [hzero]; rfl
  · rw [readNat_digits fun d hd => Nat.digits_lt_base (by decide) hd, Nat.ofDigits_digits]

/-- What is printed starts with a digit. -/
theorem natText_eq_cons (n : Nat) :
    ∃ d < 10, ∃ ds : List Nat, (∀ d ∈ ds, d < 10) ∧ natText n = digitUnit d :: ds.map digitUnit ∧
      (d = 0 → n = 0 ∧ ds = []) := by
  unfold natText
  split
  · next hzero => exact ⟨0, by decide, [], by simp, rfl, fun _ => ⟨hzero, rfl⟩⟩
  · next hpos =>
    have hne : Nat.digits 10 n ≠ [] := Nat.digits_ne_nil_iff_ne_zero.mpr hpos
    have hlast := Nat.getLast_digit_ne_zero 10 hpos
    have hlt : ∀ d ∈ Nat.digits 10 n, d < 10 := fun d hd => Nat.digits_lt_base (by decide) hd
    refine ⟨(Nat.digits 10 n).getLast hne, hlt _ (List.getLast_mem hne),
      (Nat.digits 10 n).dropLast.reverse, ?_, ?_, fun hd => absurd hd hlast⟩
    · intro d hd
      exact hlt d (List.mem_of_mem_dropLast (List.mem_reverse.mp hd))
    · conv_lhs => rw [← List.dropLast_append_getLast hne]
      simp

theorem readInt_natText (n : Nat) : readInt (natText n) = some (n : Int) := by
  obtain ⟨d, hd, ds, -, heq, -⟩ := natText_eq_cons n
  have hread := readNat_natText n
  rw [heq] at hread ⊢
  rw [readInt, if_neg (not_digitUnit_lt d hd), hread]
  rfl

/-- **Reading undoes printing.** -/
theorem readInt_intText (n : Int) : readInt (intText n) = some n := by
  unfold intText
  split
  · next hneg =>
    obtain ⟨d, hd, ds, -, heq, -⟩ := natText_eq_cons n.natAbs
    have hread := readNat_natText n.natAbs
    rw [heq] at hread ⊢
    rw [readInt, if_pos (by decide), if_neg (by simp), if_pos rfl, hread, Option.map_some]
    congr 1
    omega
  · next hpos =>
    rw [readInt_natText]
    congr 1
    omega

theorem toIntOrNull_intText {n : Int} (h : IsInt n) : toIntOrNull (intText n) = some n := by
  rw [toIntOrNull, readInt_intText, Option.bind_some, if_pos h]

end Kaede
