import Kaede.Ai.QueryClassifier
import Kaede.Infra.Words

/-!
# Classification by words

`classify` looks for its keywords anywhere in the query and counts spaces, not words.

* `ClassifiedByWords` — the rule on words that the classification should follow
* `classify_eq` — the three tests of `classify`
* `mentions_of_stretch`, `mentionsWord_of_stretch` — more spaces between the words make no keyword
  appear, and they keep the keywords of one word
* `tear`, `pad` — the longer runs that do the most
* `classifiedByWords_iff` — the queries whose classification follows the rule
-/

namespace Kaede

open Infra

namespace QueryClassifier

/-! ## The rule -/

/-- One of the keywords occurs in the lower-cased query. -/
def Mentions (keywords : List Text) (query : Text) : Prop :=
  ∃ keyword ∈ keywords, keyword <:+: lowercase query

instance (keywords : List Text) (query : Text) : Decidable (Mentions keywords query) :=
  inferInstanceAs (Decidable (∃ keyword ∈ keywords, keyword <:+: lowercase query))

def wordsOf (query : Text) : List Text := words isWhitespace (lowercase query)

/-- A greeting occurs as a sequence of whole words. -/
def Greets (isPunctuation : CodeUnit → Bool) (query : Text) : Prop :=
  ∃ phrase ∈ greetingKeywords,
    words isWhitespace phrase <:+: (wordsOf query).map (strip isPunctuation)

instance (isPunctuation : CodeUnit → Bool) (query : Text) :
    Decidable (Greets isPunctuation query) :=
  inferInstanceAs (Decidable (∃ phrase ∈ greetingKeywords,
    words isWhitespace phrase <:+: (wordsOf query).map (strip isPunctuation)))

/-- A greeting is answered shortly, and anything else as it is long. -/
def tier (greeting long : Prop) [Decidable greeting] [Decidable long] : QueryComplexity :=
  if greeting then .minimal else if long then .high else .normal

/-- The classification that depends on the words. -/
def rule (isPunctuation : CodeUnit → Bool) (query : Text) : QueryComplexity :=
  tier (Greets isPunctuation query) (Mentions complexKeywords query ∨ 20 < (wordsOf query).length)

/-- The classification is the one of the rule, and longer runs of spaces do not change it. -/
structure ClassifiedByWords (isPunctuation : CodeUnit → Bool) (query : Text) : Prop where
  rule : classify query = rule isPunctuation query
  stretched : ∀ stretched, Stretch isWhitespace query stretched → classify stretched = classify query

/-! ## The tests of `classify` -/

/-- The spaces that `classify` counts. -/
def gaps (query : Text) : Nat := (trim (lowercase query)).count space

/-- Trimming the query loses no keyword. -/
theorem any_contains_iff {keywords : List Text} {query : Text}
    (h : ∀ keyword ∈ keywords, IsPhrase isWhitespace keyword) :
    keywords.any (contains (trim (lowercase query))) = true ↔ Mentions keywords query := by
  rw [List.any_eq_true]
  refine exists_congr fun keyword => and_congr_right fun hmem => ?_
  rw [contains_iff]
  exact infix_strip_iff (h keyword hmem)

theorem isPhrase_greeting : ∀ keyword ∈ greetingKeywords, IsPhrase isWhitespace keyword := by
  decide +kernel

theorem isPhrase_complex : ∀ keyword ∈ complexKeywords, IsPhrase isWhitespace keyword := by
  decide +kernel

theorem tier_eq_iff {greeting long greeting' long' : Prop} [Decidable greeting] [Decidable long]
    [Decidable greeting'] [Decidable long'] :
    tier greeting long = tier greeting' long' ↔
      (greeting ↔ greeting') ∧ (¬ greeting → (long ↔ long')) := by
  by_cases hg : greeting <;> by_cases hg' : greeting'
  · simp [tier, hg, hg']
  · by_cases hl : long' <;> simp [tier, hg, hg', hl]
  · by_cases hl : long <;> simp [tier, hg, hg', hl]
  · by_cases hl : long <;> by_cases hl' : long' <;> simp [tier, hg, hg', hl, hl']

theorem classify_eq (query : Text) :
    classify query =
      tier (Mentions greetingKeywords query)
        (Mentions complexKeywords query ∨ 20 ≤ gaps query) := by
  have hcount : (splitSpaces (trim (lowercase query))).length = gaps query + 1 :=
    length_splitOn space _
  simp only [classify, hcount, any_contains_iff isPhrase_greeting, Bool.or_eq_true,
    any_contains_iff isPhrase_complex, decide_eq_true_eq, Nat.lt_succ_iff, ite_self]
  rfl

/-! ## Longer runs of spaces -/

/-- No blank unit is one of those that lower-casing changes. -/
theorem toNat_of_isWhitespace {c : CodeUnit} (h : isWhitespace c = true) :
    c.toNat ≤ 0x20 ∨ c.toNat = 0xA0 ∨ (0x1680 ≤ c.toNat ∧ c.toNat ≠ 0x212A) := by
  simp [isWhitespace, UInt16.le_iff_toNat_le, ← UInt16.toNat_inj] at h
  omega

theorem lowerUnit_of_isWhitespace {c : CodeUnit} (h : isWhitespace c = true) :
    lowerUnit c = [c] := by
  have hblank := toNat_of_isWhitespace h
  have hletter : ¬ (0x41 ≤ c ∧ c ≤ 0x5A) := by
    rintro ⟨hlow, hhigh⟩
    have hlow' : 0x41 ≤ c.toNat := UInt16.le_iff_toNat_le.mp hlow
    have hhigh' : c.toNat ≤ 0x5A := UInt16.le_iff_toNat_le.mp hhigh
    omega
  have hdotted : c ≠ 0x0130 := by
    rintro rfl
    simp at hblank
  have hkelvin : c ≠ 0x212A := by
    rintro rfl
    simp at hblank
  rw [lowerUnit, if_neg hletter, if_neg hdotted, if_neg hkelvin]

section Stretched

variable {query stretched : Text} (h : Stretch isWhitespace query stretched)
include h

theorem stretch_lowercase : Stretch isWhitespace (lowercase query) (lowercase stretched) :=
  h.flatMap fun _ => lowerUnit_of_isWhitespace

/-- No keyword comes to be in the query. -/
theorem mentions_of_stretch {keywords : List Text}
    (hkeywords : ∀ keyword ∈ keywords, IsPhrase isWhitespace keyword)
    (hmentions : Mentions keywords stretched) : Mentions keywords query := by
  obtain ⟨keyword, hmem, hoccurs⟩ := hmentions
  exact ⟨keyword, hmem, (stretch_lowercase h).occurs (hkeywords keyword hmem) hoccurs⟩

theorem stretch_trim : Stretch isWhitespace (trim (lowercase query)) (trim (lowercase stretched)) :=
  (stretch_lowercase h).strip fun _ hc => hc

/-- No space is lost. -/
theorem gaps_le_of_stretch : gaps query ≤ gaps stretched :=
  (stretch_trim h).sublist.count_le space

end Stretched

/-! ## The queries that are classified by their words -/

/-- A keyword of one word occurs in the lower-cased query. -/
def MentionsWord (keywords : List Text) (query : Text) : Prop :=
  ∃ keyword ∈ keywords, (∀ c ∈ keyword, isWhitespace c = false) ∧ keyword <:+: lowercase query

/-- There is no blank between the ends of the query. -/
def OneWord (query : Text) : Prop := ∀ c ∈ trim (lowercase query), isWhitespace c = false

/-- In which queries the places of the keywords and the number of spaces show the words. -/
inductive Worded (isPunctuation : CodeUnit → Bool) (query : Text) : Prop where
  /-- A greeting of one word is somewhere in the query, and some greeting is in it as whole
  words. -/
  | greeting (hword : MentionsWord greetingKeywords query) (hgreets : Greets isPunctuation query)
  | keyword (hno : ¬ Mentions greetingKeywords query) (hnone : ¬ Greets isPunctuation query)
      (hword : MentionsWord complexKeywords query)
  | long (hno : ¬ Mentions greetingKeywords query) (hnone : ¬ Greets isPunctuation query)
      (hgaps : 20 ≤ gaps query)
      (hlong : Mentions complexKeywords query ∨ 20 < (wordsOf query).length)
  | short (hno : ¬ Mentions greetingKeywords query) (hnone : ¬ Greets isPunctuation query)
      (hplain : ¬ Mentions complexKeywords query) (hone : OneWord query)

section Words

variable {keywords : List Text} {query stretched : Text}

theorem MentionsWord.mentions (h : MentionsWord keywords query) : Mentions keywords query := by
  obtain ⟨keyword, hmem, -, hoccurs⟩ := h
  exact ⟨keyword, hmem, hoccurs⟩

theorem mentionsWord_of_stretch (h : Stretch isWhitespace query stretched)
    (hkeywords : ∀ keyword ∈ keywords, IsPhrase isWhitespace keyword)
    (hmentions : MentionsWord keywords query) : MentionsWord keywords stretched := by
  obtain ⟨keyword, hmem, hword, hoccurs⟩ := hmentions
  exact ⟨keyword, hmem, hword, (stretch_lowercase h).kept (hkeywords keyword hmem) hword hoccurs⟩

theorem gaps_of_oneWord (h : OneWord query) : gaps query = 0 := by
  refine List.count_eq_zero.mpr fun hmem => ?_
  have hspace := h space hmem
  cases hspace

/-- One word has no run to lengthen but at its ends. -/
theorem OneWord.stretch (hone : OneWord query) (h : Stretch isWhitespace query stretched) :
    OneWord stretched := by
  intro c hc
  rw [(stretch_trim h).eq_of_noSpace hone] at hc
  exact hone c hc

theorem length_wordsOf_le_one (h : OneWord query) : (wordsOf query).length ≤ 1 := by
  rw [wordsOf, ← words_strip]
  exact length_words_le_one h

end Words

/-! ## The longer runs that do the most -/

theorem noSpace_lowerUnit {c : CodeUnit} (h : isWhitespace c = false) :
    ∀ x ∈ lowerUnit c, isWhitespace x = false := by
  rw [lowerUnit]
  split_ifs with hletter
  · obtain ⟨hlow, hhigh⟩ := hletter
    have hlow' : 0x41 ≤ c.toNat := UInt16.le_iff_toNat_le.mp hlow
    have hhigh' : c.toNat ≤ 0x5A := UInt16.le_iff_toNat_le.mp hhigh
    rw [List.forall_mem_singleton]
    refine Bool.eq_false_iff.mpr fun hblank => ?_
    have hplace := toNat_of_isWhitespace hblank
    rw [UInt16.toNat_add, Nat.mod_eq_of_lt (by simp; omega)] at hplace
    simp at hplace
    omega
  · exact List.forall_mem_cons.mpr ⟨rfl, List.forall_mem_singleton.mpr rfl⟩
  · exact List.forall_mem_singleton.mpr rfl
  · exact List.forall_mem_singleton.mpr h

theorem lowercase_of_blank {s : Text} (h : ∀ c ∈ s, isWhitespace c = true) : lowercase s = s := by
  induction s with
  | nil => rfl
  | cons c s ih =>
    rw [List.forall_mem_cons] at h
    rw [lowercase_cons, lowerUnit_of_isWhitespace h.1, ih h.2]
    rfl

section Fill

variable {filler query : Text} (hfiller : ∀ c ∈ filler, isWhitespace c = true)
include hfiller

theorem lowercase_fill :
    lowercase (fill isWhitespace filler query) = fill isWhitespace filler (lowercase query) := by
  induction query with
  | nil => rfl
  | cons c s ih =>
    by_cases hc : isWhitespace c = true
    · rw [fill_cons_of_pos hc, lowercase_cons, lowercase_append, lowercase_of_blank hfiller, ih,
        lowercase_cons, lowerUnit_of_isWhitespace hc, List.singleton_append, List.singleton_append,
        fill_cons_of_pos hc]
    · rw [fill_cons_of_neg hc, lowercase_cons, ih, lowercase_cons, fill_append,
        fill_of_noSpace (noSpace_lowerUnit (by simpa using hc))]

theorem gaps_fill :
    gaps (fill isWhitespace filler query) =
      gaps query + (trim (lowercase query)).countP isWhitespace * filler.count space := by
  have htrim : trim (fill isWhitespace filler (lowercase query)) =
      fill isWhitespace filler (trim (lowercase query)) := strip_fill hfiller
  rw [gaps, lowercase_fill hfiller, htrim, count_fill]
  rfl

end Fill

def tab : CodeUnit := 0x09

/-- A tab after every blank. -/
def tear (query : Text) : Text := fill isWhitespace [tab] query

/-- Twenty spaces after every blank. -/
def pad (query : Text) : Text := fill isWhitespace (List.replicate 20 space) query

theorem isWhitespace_tab : ∀ c ∈ [tab], isWhitespace c = true :=
  List.forall_mem_singleton.mpr rfl

theorem isWhitespace_spaces : ∀ c ∈ List.replicate 20 space, isWhitespace c = true := by
  intro c hc
  rw [List.eq_of_mem_replicate hc]
  rfl

theorem gaps_tear (query : Text) : gaps (tear query) = gaps query :=
  gaps_fill isWhitespace_tab

theorem le_gaps_pad {query : Text} (h : ¬ OneWord query) : 20 ≤ gaps (pad query) := by
  have hblank : 0 < (trim (lowercase query)).countP isWhitespace := by
    rw [List.countP_pos_iff]
    simpa [OneWord] using h
  rw [pad, gaps_fill isWhitespace_spaces, List.count_replicate_self]
  omega

/-- Only keywords of one word are left in the torn query. -/
theorem mentionsWord_of_tear {keywords : List Text} {query : Text}
    (hkeywords : ∀ keyword ∈ keywords, IsPhrase isWhitespace keyword ∧ tab ∉ keyword)
    (h : Mentions keywords (tear query)) : MentionsWord keywords query := by
  have hstretch : Stretch isWhitespace (lowercase query) (lowercase (tear query)) :=
    stretch_lowercase (stretch_fill isWhitespace_tab)
  obtain ⟨keyword, hmem, hoccurs⟩ := h
  obtain ⟨hphrase, htab⟩ := hkeywords keyword hmem
  refine ⟨keyword, hmem, ?_, hstretch.occurs hphrase hoccurs⟩
  rw [tear, lowercase_fill isWhitespace_tab] at hoccurs
  exact noSpace_of_infix_fill hphrase htab hoccurs

theorem tab_notMem_greeting : ∀ keyword ∈ greetingKeywords, tab ∉ keyword := by decide +kernel

theorem tab_notMem_complex : ∀ keyword ∈ complexKeywords, tab ∉ keyword := by decide +kernel

/-! ## When the classification follows the rule -/

section Rule

variable {isPunctuation : CodeUnit → Bool} {query : Text}

theorem classify_eq_rule_iff :
    classify query = rule isPunctuation query ↔
      (Mentions greetingKeywords query ↔ Greets isPunctuation query) ∧
        (¬ Mentions greetingKeywords query → ¬ Mentions complexKeywords query →
          (20 ≤ gaps query ↔ 20 < (wordsOf query).length)) := by
  rw [classify_eq, rule, tier_eq_iff]
  refine and_congr_right fun _ => forall_congr' fun _ => ?_
  by_cases hcomplex : Mentions complexKeywords query <;> simp [hcomplex]

/-- The classification of a longer query, in terms of what the query loses and gains. -/
theorem classify_stretched_iff {stretched : Text} (h : Stretch isWhitespace query stretched) :
    classify stretched = classify query ↔
      (Mentions greetingKeywords query → Mentions greetingKeywords stretched) ∧
        (¬ Mentions greetingKeywords query →
          (Mentions complexKeywords query →
            Mentions complexKeywords stretched ∨ 20 ≤ gaps stretched) ∧
          (20 ≤ gaps stretched → Mentions complexKeywords query ∨ 20 ≤ gaps query)) := by
  have hgreeting := mentions_of_stretch h isPhrase_greeting
  have hcomplex := mentions_of_stretch h isPhrase_complex
  have hgaps := gaps_le_of_stretch h
  rw [eq_comm, classify_eq, classify_eq, tier_eq_iff]
  refine and_congr ⟨Iff.mp, fun hkept => ⟨hkept, hgreeting⟩⟩ (forall_congr' fun _ => ?_)
  constructor
  · intro hsame
    exact ⟨fun hkeyword => hsame.mp (Or.inl hkeyword), fun hmany => hsame.mpr (Or.inr hmany)⟩
  · rintro ⟨hkeyword, hmany⟩
    constructor
    · exact fun hlong => hlong.elim hkeyword fun hwas => Or.inr (hwas.trans hgaps)
    · exact fun hlong => hlong.elim (fun hstill => Or.inl (hcomplex hstill)) hmany

/-- No lengthening changes the classification of a query of these kinds. -/
theorem classify_stretched_of_worded (hworded : Worded isPunctuation query) {stretched : Text}
    (h : Stretch isWhitespace query stretched) : classify stretched = classify query := by
  rw [classify_stretched_iff h]
  cases hworded with
  | greeting hword _ =>
    have hkept := (mentionsWord_of_stretch h isPhrase_greeting hword).mentions
    exact ⟨fun _ => hkept, fun hno => absurd hword.mentions hno⟩
  | keyword hno _ hword =>
    have hkept := (mentionsWord_of_stretch h isPhrase_complex hword).mentions
    exact ⟨fun hgreeting => absurd hgreeting hno,
      fun _ => ⟨fun _ => Or.inl hkept, fun _ => Or.inl hword.mentions⟩⟩
  | long hno _ hgaps _ =>
    have hstill := hgaps.trans (gaps_le_of_stretch h)
    exact ⟨fun hgreeting => absurd hgreeting hno,
      fun _ => ⟨fun _ => Or.inr hstill, fun _ => Or.inr hgaps⟩⟩
  | short hno _ hplain hone =>
    have hgaps := gaps_of_oneWord (hone.stretch h)
    exact ⟨fun hgreeting => absurd hgreeting hno,
      fun _ => ⟨fun hcomplex => absurd hcomplex hplain, fun hmany => by omega⟩⟩

theorem classify_of_worded (hworded : Worded isPunctuation query) :
    classify query = rule isPunctuation query := by
  rw [classify_eq_rule_iff]
  cases hworded with
  | greeting hword hgreets =>
    exact ⟨iff_of_true hword.mentions hgreets, fun hno => absurd hword.mentions hno⟩
  | keyword hno hnone hword =>
    exact ⟨iff_of_false hno hnone, fun _ hcomplex => absurd hword.mentions hcomplex⟩
  | long hno hnone hgaps hlong =>
    exact ⟨iff_of_false hno hnone,
      fun _ hcomplex => iff_of_true hgaps (hlong.resolve_left hcomplex)⟩
  | short hno hnone hplain hone =>
    have hgaps := gaps_of_oneWord hone
    have hlength := length_wordsOf_le_one hone
    exact ⟨iff_of_false hno hnone, fun _ _ => iff_of_false (by omega) (by omega)⟩

/-- A query whose classification follows the rule, also after a tear and a pad, is of one of the
kinds. -/
theorem worded_of_classifiedByWords (h : ClassifiedByWords isPunctuation query) :
    Worded isPunctuation query := by
  have htear : Stretch isWhitespace query (tear query) := stretch_fill isWhitespace_tab
  have hpad : Stretch isWhitespace query (pad query) := stretch_fill isWhitespace_spaces
  obtain ⟨hgreeting, hcount⟩ := classify_eq_rule_iff.mp h.rule
  obtain ⟨hkept, htorn⟩ := (classify_stretched_iff htear).mp (h.stretched _ htear)
  obtain ⟨-, hpadded⟩ := (classify_stretched_iff hpad).mp (h.stretched _ hpad)
  by_cases hgreets : Mentions greetingKeywords query
  · have hword := mentionsWord_of_tear
      (fun keyword hmem => ⟨isPhrase_greeting keyword hmem, tab_notMem_greeting keyword hmem⟩)
      (hkept hgreets)
    exact .greeting hword (hgreeting.mp hgreets)
  have hnone : ¬ Greets isPunctuation query := fun hwords => hgreets (hgreeting.mpr hwords)
  by_cases hcomplex : Mentions complexKeywords query
  · rcases (htorn hgreets).1 hcomplex with hstill | hgaps
    · have hword := mentionsWord_of_tear
        (fun keyword hmem => ⟨isPhrase_complex keyword hmem, tab_notMem_complex keyword hmem⟩)
        hstill
      exact .keyword hgreets hnone hword
    · rw [gaps_tear] at hgaps
      exact .long hgreets hnone hgaps (Or.inl hcomplex)
  · by_cases hgaps : 20 ≤ gaps query
    · exact .long hgreets hnone hgaps (Or.inr ((hcount hgreets hcomplex).mp hgaps))
    · refine .short hgreets hnone hcomplex ?_
      by_contra hmore
      exact ((hpadded hgreets).2 (le_gaps_pad hmore)).elim hcomplex hgaps

end Rule

/-- The punctuation of ASCII. -/
def asciiPunctuation (c : CodeUnit) : Bool :=
  (0x21 ≤ c ∧ c ≤ 0x2F) || (0x3A ≤ c ∧ c ≤ 0x40) || (0x5B ≤ c ∧ c ≤ 0x60) ||
    (0x7B ≤ c ∧ c ≤ 0x7E)

end QueryClassifier

end Kaede
