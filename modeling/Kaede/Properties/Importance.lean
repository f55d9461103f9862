import Kaede.Ai.PromptBuilder

/-!
# When more text makes a message less important

Keywords only add up. The bonus is given for the first pattern of a cascade, and the last pattern
of it has a larger bonus than the two before it.

* `patternBonus_mono_or` — only that pattern loses to an earlier one
* `importance_monotone_iff` — and only the cap or one more keyword makes up for it
-/

namespace Kaede

open Infra

namespace PromptBuilder

/-! ## The score -/

/-- The keywords that a lower-cased message contains. -/
def keywordsIn (lowerMessage : Text) : List String :=
  importantKeywords.filter fun keyword => contains lowerMessage (utf16 keyword)

theorem foldl_keywords (p : String → Bool) (keywords : List String) (score : Int) :
    keywords.foldl (fun score keyword => if p keyword then score + 2 else score) score =
      score + 2 * ((keywords.filter p).length : Int) := by
  induction keywords generalizing score with
  | nil => simp
  | cons keyword keywords ih =>
    rw [List.foldl_cons, ih]
    by_cases hp : p keyword = true
    · rw [if_pos hp, List.filter_cons_of_pos hp, List.length_cons]
      omega
    · rw [if_neg hp, List.filter_cons_of_neg hp]

theorem calculateImportance_eq (message : Text) :
    calculateImportance message =
      min (2 * ((keywordsIn (lowercase message)).length : Int) + patternBonus (lowercase message))
        10 := by
  unfold calculateImportance keywordsIn
  dsimp only
  rw [foldl_keywords, Int.zero_add]

theorem patternBonus_nonneg (lowerMessage : Text) : 0 ≤ patternBonus lowerMessage := by
  unfold patternBonus
  repeat' split
  all_goals decide

/-! ## More text -/

variable {a b : Text}

theorem contains_mono (h : a <:+: b) {word : Text} (hword : contains a word = true) :
    contains b word = true :=
  contains_iff.mpr ((contains_iff.mp hword).trans h)

theorem keywordsIn_sublist (h : a <:+: b) : (keywordsIn a).Sublist (keywordsIn b) :=
  List.monotone_filter_right _ fun _ hword => contains_mono h hword

/-- No keyword is new exactly when there are no more of them. -/
theorem length_keywordsIn_le_iff (h : a <:+: b) :
    (keywordsIn b).length ≤ (keywordsIn a).length ↔
      ∀ keyword ∈ importantKeywords, contains b (utf16 keyword) = true →
        contains a (utf16 keyword) = true := by
  constructor
  · intro hle keyword hmem hword
    have heq := (keywordsIn_sublist h).eq_of_length_le hle
    have hin : keyword ∈ keywordsIn a := by
      rw [heq]
      exact List.mem_filter.mpr ⟨hmem, hword⟩
    exact (List.mem_filter.mp hin).2
  · intro hall
    have heq : keywordsIn b = keywordsIn a := List.filter_congr fun keyword hmem =>
      Bool.eq_iff_iff.mpr ⟨hall keyword hmem, contains_mono h⟩
    rw [heq]

/-- The bonus of `b` is for a pattern that stands before the only one in `a`, and is smaller. -/
structure ShadowsRemember (a b : Text) : Prop where
  remember : contains a (utf16 "remember") = true
  notLike : contains a (utf16 "i like") = false
  notLove : contains a (utf16 "i love") = false
  notFeel : contains a (utf16 "i feel") = false
  notName : contains b (utf16 "my name is") = false
  notCallMe : contains b (utf16 "call me") = false
  shadow : contains b (utf16 "i like") = true ∨ contains b (utf16 "i love") = true ∨
    contains b (utf16 "i feel") = true

theorem contains_eq_false_mono (h : a <:+: b) {word : Text} (hword : contains b word = false) :
    contains a word = false := by
  rw [← Bool.not_eq_true] at hword ⊢
  exact fun hin => hword (contains_mono h hin)

theorem ShadowsRemember.bonus (hshadows : ShadowsRemember a b) (h : a <:+: b) :
    patternBonus a = 4 ∧ patternBonus b = 3 := by
  have hname := contains_eq_false_mono h hshadows.notName
  have hcall := contains_eq_false_mono h hshadows.notCallMe
  constructor
  · simp [patternBonus, hname, hcall, hshadows.notLike, hshadows.notLove, hshadows.notFeel,
      hshadows.remember]
  · rcases hshadows.shadow with hlike | hlove | hfeel
    · simp [patternBonus, hshadows.notName, hshadows.notCallMe, hlike]
    · simp [patternBonus, hshadows.notName, hshadows.notCallMe, hlove]
    · simp [patternBonus, hshadows.notName, hshadows.notCallMe, hfeel]

/-- A pattern that stands before the last one gives at least 3. -/
theorem three_le_patternBonus
    (h : contains b (utf16 "i like") = true ∨ contains b (utf16 "i love") = true ∨
      contains b (utf16 "i feel") = true) : 3 ≤ patternBonus b := by
  unfold patternBonus
  split
  · decide
  · split
    · decide
    · split
      · decide
      · next hneither =>
        rw [Bool.or_eq_true_iff, not_or] at hneither
        rw [if_pos ((h.resolve_left hneither.1).resolve_left hneither.2)]

theorem four_le_patternBonus
    (h : contains b (utf16 "my name is") = true ∨ contains b (utf16 "call me") = true) :
    4 ≤ patternBonus b := by
  unfold patternBonus
  split
  · decide
  · next hname => rw [if_pos (h.resolve_left hname)]

/-- More text lowers the bonus only by shadowing the last pattern. -/
theorem patternBonus_mono_or (h : a <:+: b) :
    patternBonus a ≤ patternBonus b ∨ ShadowsRemember a b := by
  by_cases hcall : contains b (utf16 "my name is") = true ∨ contains b (utf16 "call me") = true
  · refine Or.inl ?_
    by_cases hname : contains a (utf16 "my name is") = true
    · rw [patternBonus, if_pos hname, patternBonus, if_pos (contains_mono h hname)]
    · -- no other pattern gives more than 4
      refine le_trans ?_ (four_le_patternBonus hcall)
      rw [patternBonus, if_neg hname]
      repeat' split
      all_goals decide
  · rw [not_or, Bool.not_eq_true, Bool.not_eq_true] at hcall
    have hname := contains_eq_false_mono h hcall.1
    have hcallMe := contains_eq_false_mono h hcall.2
    have hnotLike := @contains_eq_false_mono a b h (utf16 "i like")
    have hnotLove := @contains_eq_false_mono a b h (utf16 "i love")
    have hnotFeel := @contains_eq_false_mono a b h (utf16 "i feel")
    by_cases hshadow : contains b (utf16 "i like") = true ∨ contains b (utf16 "i love") = true ∨
        contains b (utf16 "i feel") = true
    · by_cases hown : contains a (utf16 "i like") = true ∨ contains a (utf16 "i love") = true ∨
          contains a (utf16 "i feel") = true
      · -- both have a pattern that gives 3
        refine Or.inl (le_trans (le_of_eq ?_) (three_le_patternBonus hshadow))
        rcases hown with hlike | hlove | hfeel <;> simp [patternBonus, *]
      · simp only [not_or, Bool.not_eq_true] at hown
        obtain ⟨hlike, hlove, hfeel⟩ := hown
        by_cases hremember : contains a (utf16 "remember") = true
        · exact Or.inr ⟨hremember, hlike, hlove, hfeel, hcall.1, hcall.2, hshadow⟩
        · refine Or.inl (le_trans (le_of_eq ?_) (patternBonus_nonneg b))
          simp [patternBonus, hname, hcallMe, hlike, hlove, hfeel, hremember]
    · simp only [not_or, Bool.not_eq_true] at hshadow
      obtain ⟨hlike, hlove, hfeel⟩ := hshadow
      have hbonus : ∀ x : Text, contains x (utf16 "my name is") = false →
          contains x (utf16 "call me") = false → contains x (utf16 "i like") = false →
          contains x (utf16 "i love") = false → contains x (utf16 "i feel") = false →
          patternBonus x = if contains x (utf16 "remember") = true then 4 else 0 := by
        intro x h1 h2 h3 h4 h5
        simp [patternBonus, h1, h2, h3, h4, h5]
      rw [hbonus a hname hcallMe (hnotLike hlike) (hnotLove hlove) (hnotFeel hfeel),
        hbonus b hcall.1 hcall.2 hlike hlove hfeel]
      refine Or.inl ?_
      split
      · next hremember => rw [if_pos (contains_mono h hremember)]
      · split <;> decide

/-! ## When the score goes down -/

/-- An earlier pattern shadows the last one, no keyword is new, and the score is below the cap. -/
structure LosesImportance (a b : Text) : Prop extends ShadowsRemember a b where
  noNewKeyword : ∀ keyword ∈ importantKeywords, contains b (utf16 keyword) = true →
    contains a (utf16 keyword) = true
  few : (keywordsIn a).length ≤ 3

theorem min_le_min_iff_not_losesImportance (h : a <:+: b) :
    min (2 * ((keywordsIn a).length : Int) + patternBonus a) 10 ≤
        min (2 * ((keywordsIn b).length : Int) + patternBonus b) 10 ↔ ¬ LosesImportance a b := by
  have hkeywords := (keywordsIn_sublist h).length_le
  constructor
  · intro hle hloses
    obtain ⟨ha, hb⟩ := hloses.toShadowsRemember.bonus h
    have hsame := (length_keywordsIn_le_iff h).mpr hloses.noNewKeyword
    have hfew := hloses.few
    omega
  · intro hkeeps
    rcases patternBonus_mono_or h with hbonus | hshadows
    · omega
    · obtain ⟨ha, hb⟩ := hshadows.bonus h
      by_cases hsame : (keywordsIn b).length ≤ (keywordsIn a).length
      · have hmany : ¬ (keywordsIn a).length ≤ 3 := fun hfew =>
          hkeeps ⟨hshadows, (length_keywordsIn_le_iff h).mp hsame, hfew⟩
        omega
      · omega

theorem infix_lowercase (p m s : Text) : lowercase m <:+: lowercase (p ++ m ++ s) := by
  rw [lowercase_append, lowercase_append]
  exact ⟨lowercase p, lowercase s, rfl⟩

/--
**Text around a message lowers its importance exactly when it shadows `remember`.**

The score is always between 0 and 10.
-/
theorem importance_monotone_iff (p m s : Text) :
    (calculateImportance m ≤ calculateImportance (p ++ m ++ s) ∧
        0 ≤ calculateImportance m ∧ calculateImportance m ≤ 10) ↔
      ¬ LosesImportance (lowercase m) (lowercase (p ++ m ++ s)) := by
  have hbonus := patternBonus_nonneg (lowercase m)
  rw [calculateImportance_eq, calculateImportance_eq,
    ← min_le_min_iff_not_losesImportance (infix_lowercase p m s)]
  refine and_iff_left ⟨?_, min_le_right _ _⟩
  omega

/-- Adding what one likes takes the importance from 8 to 7. -/
theorem like_shadows_remember :
    ¬ calculateImportance (utf16 "Remember what you like!") ≤
      calculateImportance (utf16 "" ++ utf16 "Remember what you like!" ++ utf16 " I like tea") := by
  decide +kernel

end PromptBuilder

end Kaede
