import Mathlib.Data.List.Infix
import Mathlib.Data.List.Forall2

/-!
# Patterns with wildcards

A pattern is a list of symbols, and a text matches it when it can be cut into pieces that the
symbols accept one by one. The alphabet is arbitrary.

* `matchesPattern_iff` — the matcher decides this
* `matchesPattern_contains_iff` — a word between two wildcards is a search for that word
-/

namespace Kaede.Infra

variable {α : Type*}

inductive PatternSymbol (α : Type*) where
  | anySequence
  | anyOne
  | exactly (c : α)
deriving DecidableEq, Repr

/-- Which pieces of a text a symbol stands for. -/
def PatternSymbol.Accepts : PatternSymbol α → List α → Prop
  | .anySequence, _ => True
  | .anyOne, piece => piece.length = 1
  | .exactly c, piece => piece = [c]

variable [DecidableEq α]

def matchesPattern : List (PatternSymbol α) → List α → Bool
  | [], s => s.isEmpty
  | .anySequence :: pattern, s => s.tails.any fun rest => matchesPattern pattern rest
  | .anyOne :: pattern, s =>
    match s with
    | [] => false
    | _ :: s => matchesPattern pattern s
  | .exactly c :: pattern, s =>
    match s with
    | [] => false
    | d :: s => decide (c = d) && matchesPattern pattern s

variable {pattern : List (PatternSymbol α)} {s : List α}

@[simp] theorem matchesPattern_nil : matchesPattern ([] : List (PatternSymbol α)) s ↔ s = [] := by
  rw [matchesPattern, List.isEmpty_iff]

theorem matchesPattern_anySequence :
    matchesPattern (.anySequence :: pattern) s ↔
      ∃ rest, rest <:+ s ∧ matchesPattern pattern rest := by
  simp [matchesPattern, List.any_eq_true, List.mem_tails]

@[simp] theorem matchesPattern_anyOne :
    matchesPattern (.anyOne :: pattern) s ↔
      ∃ d rest, s = d :: rest ∧ matchesPattern pattern rest := by
  cases s with
  | nil => simp [matchesPattern]
  | cons d s => simp [matchesPattern]

@[simp] theorem matchesPattern_exactly {c : α} :
    matchesPattern (.exactly c :: pattern) s ↔
      ∃ rest, s = c :: rest ∧ matchesPattern pattern rest := by
  cases s with
  | nil => simp [matchesPattern]
  | cons d s =>
    rw [matchesPattern, Bool.and_eq_true_iff, decide_eq_true_iff]
    constructor
    · rintro ⟨rfl, h⟩
      exact ⟨s, rfl, h⟩
    · rintro ⟨rest, heq, h⟩
      cases heq
      exact ⟨rfl, h⟩

/-- **A text matches when it can be cut into pieces that the symbols accept.** -/
theorem matchesPattern_iff :
    matchesPattern pattern s ↔
      ∃ pieces, List.Forall₂ PatternSymbol.Accepts pattern pieces ∧ pieces.flatten = s := by
  induction pattern generalizing s with
  | nil =>
    rw [matchesPattern_nil]
    constructor
    · rintro rfl
      exact ⟨[], List.Forall₂.nil, rfl⟩
    · rintro ⟨pieces, hall, rfl⟩
      cases hall
      rfl
  | cons symbol pattern ih =>
    simp only [List.forall₂_cons_left_iff]
    cases symbol with
    | anySequence =>
      rw [matchesPattern_anySequence]
      constructor
      · rintro ⟨rest, ⟨piece, rfl⟩, hrest⟩
        obtain ⟨pieces, hall, rfl⟩ := ih.mp hrest
        exact ⟨piece :: pieces, ⟨piece, pieces, trivial, hall, rfl⟩, rfl⟩
      · rintro ⟨_, ⟨piece, pieces, -, hall, rfl⟩, rfl⟩
        exact ⟨pieces.flatten, ⟨piece, rfl⟩, ih.mpr ⟨pieces, hall, rfl⟩⟩
    | anyOne =>
      rw [matchesPattern_anyOne]
      constructor
      · rintro ⟨d, rest, rfl, hrest⟩
        obtain ⟨pieces, hall, rfl⟩ := ih.mp hrest
        exact ⟨[d] :: pieces, ⟨[d], pieces, rfl, hall, rfl⟩, rfl⟩
      · rintro ⟨_, ⟨piece, pieces, hpiece, hall, rfl⟩, rfl⟩
        obtain ⟨d, rfl⟩ := List.length_eq_one_iff.mp hpiece
        exact ⟨d, pieces.flatten, rfl, ih.mpr ⟨pieces, hall, rfl⟩⟩
    | exactly c =>
      rw [matchesPattern_exactly]
      constructor
      · rintro ⟨rest, rfl, hrest⟩
        obtain ⟨pieces, hall, rfl⟩ := ih.mp hrest
        exact ⟨[c] :: pieces, ⟨[c], pieces, rfl, hall, rfl⟩, rfl⟩
      · rintro ⟨_, ⟨piece, pieces, hpiece, hall, rfl⟩, rfl⟩
        cases hpiece
        exact ⟨pieces.flatten, rfl, ih.mpr ⟨pieces, hall, rfl⟩⟩

/-! ## Searching for a word -/

/-- The pattern that finds what another one matches anywhere in a text. -/
def anywhere (pattern : List (PatternSymbol α)) : List (PatternSymbol α) :=
  .anySequence :: pattern ++ [.anySequence]

theorem matchesPattern_word_append {w : List α} :
    matchesPattern (w.map .exactly ++ pattern) s ↔
      ∃ rest, s = w ++ rest ∧ matchesPattern pattern rest := by
  induction w generalizing s with
  | nil => simp
  | cons c w ih => simp [ih]

/-- **A word between two wildcards is a search for that word.** -/
theorem matchesPattern_contains_iff {w : List α} :
    matchesPattern (anywhere (w.map .exactly)) s ↔ w <:+: s := by
  have hlast : ∀ rest : List α, matchesPattern [PatternSymbol.anySequence] rest := fun rest =>
    matchesPattern_anySequence.mpr ⟨[], List.nil_suffix, matchesPattern_nil.mpr rfl⟩
  rw [anywhere, List.cons_append, matchesPattern_anySequence]
  simp only [matchesPattern_word_append, hlast, and_true]
  constructor
  · rintro ⟨_, ⟨before, rfl⟩, rest, rfl⟩
    exact ⟨before, rest, List.append_assoc ..⟩
  · rintro ⟨before, rest, rfl⟩
    exact ⟨w ++ rest, ⟨before, (List.append_assoc ..).symm⟩, rest, rfl⟩

/-- A text that matches symbol by symbol is also found. -/
theorem matchesPattern_anywhere_of_forall₂
    (h : List.Forall₂ (fun symbol c => symbol.Accepts [c]) pattern s) :
    matchesPattern (anywhere pattern) s := by
  refine matchesPattern_iff.mpr ⟨[] :: s.map (fun c => [c]) ++ [[]], ?_, ?_⟩
  · have hpieces : List.Forall₂ PatternSymbol.Accepts pattern (s.map fun c => [c]) :=
      List.forall₂_map_right_iff.mpr h
    exact List.Forall₂.cons trivial (List.rel_append hpieces (.cons trivial .nil))
  · have hflatten : (s.map fun c => [c]).flatten = s := by
      rw [← List.flatMap_def, List.flatMap_singleton']
    simp [hflatten]

end Kaede.Infra
