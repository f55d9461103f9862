import Kaede.Infra.Infix
import Mathlib.Data.List.DropRight

/-!
# Text

Kotlin's `String` is a sequence of UTF-16 code units, so `Text` is a list of them. Lone surrogates
are included.

Every word the program searches for is ASCII. `lowercase` and `equals(ignoreCase)` are therefore
written out on the units that can become ASCII letters. All other units lower-case to units
outside ASCII. No search here can tell which ones, so they stay as they are.
-/

namespace Kaede

open Infra

/-- Kotlin's `Char`. -/
abbrev CodeUnit := UInt16

/-- Kotlin's `String`. -/
abbrev Text := List CodeUnit

/-! ## Literals -/

/-- The code units of one code point: one, or a surrogate pair above U+FFFF. -/
def utf16Char (c : Char) : Text :=
  if c.toNat < 0x10000 then [UInt16.ofNat c.toNat]
  else [UInt16.ofNat (0xD800 + (c.toNat - 0x10000) / 0x400),
    UInt16.ofNat (0xDC00 + (c.toNat - 0x10000) % 0x400)]

/-- A string literal of the source as the code units that Kotlin stores. -/
def utf16 (s : String) : Text := s.toList.flatMap utf16Char

theorem utf16_ne_nil {s : String} (h : s ≠ "") : utf16 s ≠ [] := by
  obtain ⟨c, cs, hs⟩ : ∃ c cs, s.toList = c :: cs :=
    List.exists_cons_of_ne_nil fun hnil => h (String.toList_eq_nil_iff.mp hnil)
  rw [utf16, hs, List.flatMap_cons, utf16Char]
  split <;> simp

def newline : CodeUnit := 0x0A

def space : CodeUnit := 0x20

/-! ## Letter case -/

/-- `lowercase()` of one unit. U+0130 and U+212A are the units outside ASCII that lower-case
into ASCII letters. -/
def lowerUnit (c : CodeUnit) : Text :=
  if 0x41 ≤ c ∧ c ≤ 0x5A then [c + 0x20]
  else if c = 0x0130 then [0x69, 0x0307]
  else if c = 0x212A then [0x6B]
  else [c]

/-- `String.lowercase()`. -/
def lowercase (s : Text) : Text := s.flatMap lowerUnit

@[simp] theorem lowercase_nil : lowercase [] = [] := rfl

@[simp] theorem lowercase_append (a b : Text) :
    lowercase (a ++ b) = lowercase a ++ lowercase b := List.flatMap_append ..

@[simp] theorem lowercase_cons (c : CodeUnit) (s : Text) :
    lowercase (c :: s) = lowerUnit c ++ lowercase s := List.flatMap_cons ..

/-- Two units are equal up to case when these are equal: the upper-cased unit, lower-cased. -/
def foldUnit (c : CodeUnit) : CodeUnit :=
  if 0x41 ≤ c ∧ c ≤ 0x5A then c + 0x20
  else if c = 0x0130 ∨ c = 0x0131 then 0x69
  else if c = 0x017F then 0x73
  else if c = 0x212A then 0x6B
  else c

/-! ## Searching -/

/-- `String.contains(word)`. -/
def contains (s word : Text) : Bool := decide (word <:+: s)

/-- `String.contains(word, ignoreCase = true)`. -/
def containsIgnoreCase (s word : Text) : Bool :=
  contains (s.map foldUnit) (word.map foldUnit)

theorem contains_iff {s word : Text} : contains s word = true ↔ word <:+: s := by
  rw [contains, decide_eq_true_eq]

/-- `String.startsWith(word, startIndex)`, for a word that is not empty. -/
def startsWith (s word : Text) (startIndex : Nat) : Bool := word.isPrefixOf (s.drop startIndex)

/-- The index of the first occurrence of a word that is not empty. -/
def firstIndex (word : Text) : Text → Option Nat
  | [] => none
  | c :: s => if word.isPrefixOf (c :: s) then some 0 else (firstIndex word s).map (· + 1)

/-- `String.indexOf(word, startIndex)`, for a word that is not empty. `none` is `-1`. -/
def indexOf (s word : Text) (startIndex : Nat) : Option Nat :=
  (firstIndex word (s.drop startIndex)).map (startIndex + ·)

/-- `String.substring(startIndex, endIndex)`. `none` is an index error. -/
def substring (s : Text) (startIndex endIndex : Nat) : Option Text :=
  if startIndex ≤ endIndex ∧ endIndex ≤ s.length then some ((s.take endIndex).drop startIndex)
  else none

theorem startsWith_iff {s word : Text} {i : Nat} :
    startsWith s word i = true ↔ word <+: s.drop i := by
  rw [startsWith, List.isPrefixOf_iff_prefix]

theorem prefix_of_firstIndex {s word : Text} {i : Nat} (h : firstIndex word s = some i) :
    word <+: s.drop i := by
  induction s generalizing i with
  | nil => cases h
  | cons c s ih =>
    rw [firstIndex] at h
    split at h
    · next hword =>
      rw [Option.some.injEq] at h
      exact h ▸ List.isPrefixOf_iff_prefix.mp hword
    · obtain ⟨j, hj, rfl⟩ := Option.map_eq_some_iff.mp h
      rw [List.drop_succ_cons]
      exact ih hj

/-- The index that is found is not before the start, and the word stands there. -/
theorem indexOf_spec {s word : Text} {i j : Nat} (h : indexOf s word i = some j) :
    i ≤ j ∧ word <+: s.drop j := by
  obtain ⟨k, hk, rfl⟩ := Option.map_eq_some_iff.mp h
  refine ⟨Nat.le_add_right i k, ?_⟩
  rw [← List.drop_drop]
  exact prefix_of_firstIndex hk

/-- `String.replace(old, new)`, for an old value of one unit. -/
def replaceUnit (old : CodeUnit) (new s : Text) : Text :=
  s.flatMap fun c => if c = old then new else [c]

/-- `String.split(" ")`. -/
def splitSpaces (s : Text) : List Text := s.splitOn space

/-! ## Trimming -/

/-- `Char.isWhitespace()`. -/
def isWhitespace (c : CodeUnit) : Bool :=
  (0x09 ≤ c ∧ c ≤ 0x0D) || (0x1C ≤ c ∧ c ≤ 0x20) || c == 0xA0 || c == 0x1680 ||
    (0x2000 ≤ c ∧ c ≤ 0x200A) || c == 0x2028 || c == 0x2029 || c == 0x202F || c == 0x205F ||
    c == 0x3000

/-- `String.trim()`. -/
def trim (s : Text) : Text := (s.dropWhile isWhitespace).rdropWhile isWhitespace

end Kaede
