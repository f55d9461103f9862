import Kaede.Text

/-!
# Code points

A surrogate pair is one code point. A surrogate that is not part of a pair counts as a code point
of its own, so that every `Text` has code points, and they give the text back.

* `flatMap_unitsOf` — the code points of a text are written by the units of the text
* `codePoints_append` — cutting a text cuts its code points, unless the cut splits a pair
-/

namespace Kaede

/-! ## Surrogates -/

def isHighSurrogate (c : CodeUnit) : Bool := 0xD800 ≤ c && c ≤ 0xDBFF

def isLowSurrogate (c : CodeUnit) : Bool := 0xDC00 ≤ c && c ≤ 0xDFFF

theorem isHighSurrogate_iff {c : CodeUnit} :
    isHighSurrogate c = true ↔ 0xD800 ≤ c.toNat ∧ c.toNat ≤ 0xDBFF := by
  rw [isHighSurrogate, Bool.and_eq_true_iff, decide_eq_true_iff, decide_eq_true_iff,
    UInt16.le_iff_toNat_le, UInt16.le_iff_toNat_le]
  rfl

theorem isLowSurrogate_iff {c : CodeUnit} :
    isLowSurrogate c = true ↔ 0xDC00 ≤ c.toNat ∧ c.toNat ≤ 0xDFFF := by
  rw [isLowSurrogate, Bool.and_eq_true_iff, decide_eq_true_iff, decide_eq_true_iff,
    UInt16.le_iff_toNat_le, UInt16.le_iff_toNat_le]
  rfl

/-- The code point of a surrogate pair. -/
def pairValue (high low : CodeUnit) : Nat :=
  0x10000 + (high.toNat - 0xD800) * 0x400 + (low.toNat - 0xDC00)

/-! ## Decoding -/

def codePoints : Text → List Nat
  | [] => []
  | [c] => [c.toNat]
  | c :: d :: s =>
    if isHighSurrogate c && isLowSurrogate d then pairValue c d :: codePoints s
    else c.toNat :: codePoints (d :: s)

/-- The units that write a code point. -/
def unitsOf (n : Nat) : Text :=
  if n < 0x10000 then [UInt16.ofNat n]
  else [UInt16.ofNat (0xD800 + (n - 0x10000) / 0x400),
    UInt16.ofNat (0xDC00 + (n - 0x10000) % 0x400)]

theorem unitsOf_toNat (c : CodeUnit) : unitsOf c.toNat = [c] := by
  rw [unitsOf, if_pos c.toNat_lt, UInt16.ofNat_toNat]

theorem unitsOf_pairValue {c d : CodeUnit} (hc : isHighSurrogate c = true)
    (hd : isLowSurrogate d = true) : unitsOf (pairValue c d) = [c, d] := by
  rw [isHighSurrogate_iff] at hc
  rw [isLowSurrogate_iff] at hd
  have hhigh : 0xD800 + (pairValue c d - 0x10000) / 0x400 = c.toNat := by
    unfold pairValue
    omega
  have hlow : 0xDC00 + (pairValue c d - 0x10000) % 0x400 = d.toNat := by
    unfold pairValue
    omega
  have hlarge : ¬ pairValue c d < 0x10000 := by
    unfold pairValue
    omega
  rw [unitsOf, if_neg hlarge, hhigh, hlow, UInt16.ofNat_toNat, UInt16.ofNat_toNat]

/-- **The code points of a text give the text back.** -/
theorem flatMap_unitsOf (s : Text) : (codePoints s).flatMap unitsOf = s := by
  induction s using codePoints.induct with
  | case1 => rfl
  | case2 c => rw [codePoints, List.flatMap_singleton, unitsOf_toNat]
  | case3 c d s hpair ih =>
    obtain ⟨hc, hd⟩ := Bool.and_eq_true_iff.mp hpair
    rw [codePoints, if_pos hpair, List.flatMap_cons, unitsOf_pairValue hc hd, ih]
    rfl
  | case4 c d s hpair ih =>
    rw [codePoints, if_neg hpair, List.flatMap_cons, unitsOf_toNat, ih]
    rfl

/-! ## Cutting -/

/-- The cut between the two texts falls into a surrogate pair. -/
def splitsPair (a b : Text) : Bool := a.getLast?.any isHighSurrogate && b.head?.any isLowSurrogate

/-- **Cutting a text cuts its code points, unless the cut splits a pair.** -/
theorem codePoints_append {a b : Text} (h : splitsPair a b = false) :
    codePoints (a ++ b) = codePoints a ++ codePoints b := by
  induction a using codePoints.induct with
  | case1 => rfl
  | case2 c =>
    cases b with
    | nil => rfl
    | cons d b =>
      have hpair : ¬ (isHighSurrogate c && isLowSurrogate d) = true := by
        rw [Bool.not_eq_true]
        exact h
      show codePoints (c :: d :: b) = c.toNat :: codePoints (d :: b)
      rw [codePoints, if_neg hpair]
  | case3 c d s hpair ih =>
    have hrest : splitsPair s b = false := by
      cases s with
      | nil => rfl
      | cons e s => exact h
    rw [List.cons_append, List.cons_append, codePoints, if_pos hpair, ih hrest, codePoints,
      if_pos hpair, List.cons_append]
  | case4 c d s hpair ih =>
    have hrest : splitsPair (d :: s) b = false := h
    rw [List.cons_append, List.cons_append, codePoints, if_neg hpair, ← List.cons_append,
      ih hrest, codePoints, if_neg hpair, List.cons_append]

/-! ## Maps that leave surrogates alone -/

/-- A map on units, and the same map on code points. -/
structure UnitMap where
  onUnit : CodeUnit → CodeUnit
  onCodePoint : Nat → Nat
  toNat_onUnit : ∀ c, (onUnit c).toNat = onCodePoint c.toNat
  isHighSurrogate_onUnit : ∀ c, isHighSurrogate (onUnit c) = isHighSurrogate c
  isLowSurrogate_onUnit : ∀ c, isLowSurrogate (onUnit c) = isLowSurrogate c
  onUnit_of_high : ∀ c, isHighSurrogate c = true → onUnit c = c
  onUnit_of_low : ∀ c, isLowSurrogate c = true → onUnit c = c
  onCodePoint_of_large : ∀ n, 0x10000 ≤ n → onCodePoint n = n

theorem codePoints_map (f : UnitMap) (s : Text) :
    codePoints (s.map f.onUnit) = (codePoints s).map f.onCodePoint := by
  induction s using codePoints.induct with
  | case1 => rfl
  | case2 c => simp [codePoints, f.toNat_onUnit]
  | case3 c d s hpair ih =>
    obtain ⟨hc, hd⟩ := Bool.and_eq_true_iff.mp hpair
    have hlarge : 0x10000 ≤ pairValue c d := Nat.le_add_right_of_le (Nat.le_add_right _ _)
    rw [List.map_cons, List.map_cons, f.onUnit_of_high c hc, f.onUnit_of_low d hd, codePoints,
      if_pos hpair, ih, codePoints, if_pos hpair, List.map_cons, f.onCodePoint_of_large _ hlarge]
  | case4 c d s hpair ih =>
    have hpair' : ¬ (isHighSurrogate (f.onUnit c) && isLowSurrogate (f.onUnit d)) = true := by
      rwa [f.isHighSurrogate_onUnit, f.isLowSurrogate_onUnit]
    rw [List.map_cons] at ih
    rw [List.map_cons, List.map_cons, codePoints, if_neg hpair', ih, codePoints, if_neg hpair,
      List.map_cons, f.toNat_onUnit]

/-- ASCII letters in lower case. -/
def asciiLower : UnitMap where
  onUnit c := if 0x41 ≤ c ∧ c ≤ 0x5A then c + 0x20 else c
  onCodePoint n := if 0x41 ≤ n ∧ n ≤ 0x5A then n + 0x20 else n
  toNat_onUnit c := by
    have hiff : (0x41 ≤ c ∧ c ≤ 0x5A) ↔ (0x41 ≤ c.toNat ∧ c.toNat ≤ 0x5A) := by
      rw [UInt16.le_iff_toNat_le, UInt16.le_iff_toNat_le]
      rfl
    by_cases h : 0x41 ≤ c ∧ c ≤ 0x5A
    · have hle := (hiff.mp h).2
      rw [if_pos h, if_pos (hiff.mp h), UInt16.toNat_add]
      show (c.toNat + 0x20) % 2 ^ 16 = c.toNat + 0x20
      omega
    · rw [if_neg h, if_neg (hiff.not.mp h)]
  isHighSurrogate_onUnit c := by grind [isHighSurrogate]
  isLowSurrogate_onUnit c := by grind [isLowSurrogate]
  onUnit_of_high c h := by grind [isHighSurrogate]
  onUnit_of_low c h := by grind [isLowSurrogate]
  onCodePoint_of_large n h := if_neg (by omega)

end Kaede
