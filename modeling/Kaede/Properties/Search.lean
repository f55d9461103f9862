import Kaede.Data.MemoryRepository

/-!
# When the memory search is a substring search

The query becomes part of a `LIKE` pattern as it is, so its wildcards stay wildcards.

* `like_query_iff` — without wildcards, and cut at whole characters, a query is searched literally
* `searchesLiterally_iff` — and for no other query is it, whatever the table holds
-/

namespace Kaede

open Infra MemoryDao

/-! ## Literal search -/

/-- The text contains the word up to the case of ASCII letters. -/
def containsAsciiCase (s word : Text) : Bool :=
  contains (s.map asciiLower.onUnit) (word.map asciiLower.onUnit)

/-- The search returns the memories whose content contains the query, each once and in order. -/
structure SearchesLiterally (query : Text) (table : MemoryTable) : Prop where
  found : (MemoryRepository.searchMemories query table).Perm
    (table.rows.filter fun row => containsAsciiCase row.content query)
  ordered : (MemoryRepository.searchMemories query table).Pairwise fun a b =>
    b.importanceScore < a.importanceScore ∨
      b.importanceScore = a.importanceScore ∧ b.timestamp ≤ a.timestamp

/-- The pattern has a wildcard of its own. -/
def HasWildcard (query : Text) : Prop := 0x25 ∈ query ∨ 0x5F ∈ query

/-- Neither end of the text is half of a surrogate pair. -/
def WholeCharacters (s : Text) : Prop :=
  s.head?.any isLowSurrogate = false ∧ s.getLast?.any isHighSurrogate = false

variable {query : Text} {table : MemoryTable}

theorem ordered_searchMemories (query : Text) (table : MemoryTable) :
    (MemoryRepository.searchMemories query table).Pairwise fun a b =>
      b.importanceScore < a.importanceScore ∨
        b.importanceScore = a.importanceScore ∧ b.timestamp ≤ a.timestamp := by
  have hsorted : (MemoryRepository.searchMemories query table).Pairwise fun a b =>
      searchKey b ≤ searchKey a := rankDesc_pairwise _
  exact hsorted.imp fun h => Prod.Lex.toLex_le_toLex.mp h

/-! ## Whole characters -/

theorem splitsPair_of_head {a b : Text} (h : b.head?.any isLowSurrogate = false) :
    splitsPair a b = false := by
  rw [splitsPair, h, Bool.and_false]

theorem splitsPair_of_last {a b : Text} (h : a.getLast?.any isHighSurrogate = false) :
    splitsPair a b = false := by
  rw [splitsPair, h, Bool.false_and]

theorem WholeCharacters.map {s : Text} (h : WholeCharacters s) (f : UnitMap) :
    WholeCharacters (s.map f.onUnit) := by
  obtain ⟨hhead, hlast⟩ := h
  constructor
  · rw [List.head?_map, Option.any_map, ← hhead]
    exact congrArg (s.head?.any ·) (funext f.isLowSurrogate_onUnit)
  · rw [List.getLast?_map, Option.any_map, ← hlast]
    exact congrArg (s.getLast?.any ·) (funext f.isHighSurrogate_onUnit)

/-- Whole characters are found among the code points exactly where they are found among the
units. -/
theorem codePoints_infix_iff {w s : Text} (hw : WholeCharacters w) :
    codePoints w <:+: codePoints s ↔ w <:+: s := by
  constructor
  · rintro ⟨before, after, h⟩
    refine ⟨before.flatMap unitsOf, after.flatMap unitsOf, ?_⟩
    rw [← flatMap_unitsOf s, ← h, List.flatMap_append, List.flatMap_append, flatMap_unitsOf]
  · rintro ⟨before, after, rfl⟩
    cases w with
    | nil => exact List.nil_infix
    | cons c w =>
      have hlow : splitsPair before (c :: w ++ after) = false := splitsPair_of_head hw.1
      have hhigh : splitsPair (c :: w) after = false := splitsPair_of_last hw.2
      rw [List.append_assoc, codePoints_append hlow, codePoints_append hhigh]
      exact ⟨codePoints before, codePoints after, List.append_assoc ..⟩

/-- An ASCII character is a code point of a text exactly when it is one of its units. -/
theorem mem_of_mem_codePoints {s : Text} {c : CodeUnit} (h : c.toNat ∈ codePoints s) : c ∈ s := by
  rw [← flatMap_unitsOf s]
  exact List.mem_flatMap.mpr ⟨c.toNat, h, by rw [unitsOf_toNat]; exact List.mem_singleton_self c⟩

/-! ## The pattern -/

theorem like_query (content query : Text) :
    like content (utf16 "%" ++ query ++ utf16 "%") =
      matchesPattern (anywhere ((codePoints (query.map asciiLower.onUnit)).map likeSymbol))
        (codePoints (content.map asciiLower.onUnit)) := by
  have hpercent : utf16 "%" = [0x25] := by decide
  have hfirst : splitsPair [0x25] (query ++ [0x25]) = false := splitsPair_of_last rfl
  have hlast : splitsPair query [0x25] = false := splitsPair_of_head rfl
  rw [like, hpercent, List.append_assoc, codePoints_append hfirst, codePoints_append hlast,
    codePoints_map, codePoints_map, List.map_append, List.map_append, List.map_append,
    List.map_append]
  rfl

theorem likeSymbol_eq_exactly {n : Nat} (h : n ≠ 0x25) (h' : n ≠ 0x5F) :
    likeSymbol n = .exactly n := by
  rw [likeSymbol, if_neg h, if_neg h']

/-- Only the wildcards lower-case to wildcards. -/
theorem mem_map_asciiLower {s : Text} {c : CodeUnit} (hc : c = 0x25 ∨ c = 0x5F) :
    c ∈ s.map asciiLower.onUnit ↔ c ∈ s := by
  have hunit : ∀ d : CodeUnit, asciiLower.onUnit d = c ↔ d = c := by
    intro d
    show (if 0x41 ≤ d ∧ d ≤ 0x5A then d + 0x20 else d) = c ↔ d = c
    grind
  simp only [List.mem_map, hunit, exists_eq_right]

/-- Without wildcards, every character of the query stands for itself. -/
theorem exactly_of_plain (hplain : ¬ HasWildcard query) :
    (codePoints (query.map asciiLower.onUnit)).map likeSymbol =
      (codePoints (query.map asciiLower.onUnit)).map .exactly := by
  refine List.map_congr_left fun n hn => likeSymbol_eq_exactly ?_ ?_
  · rintro rfl
    exact hplain (Or.inl ((mem_map_asciiLower (Or.inl rfl)).mp
      (mem_of_mem_codePoints (c := 0x25) hn)))
  · rintro rfl
    exact hplain (Or.inr ((mem_map_asciiLower (Or.inr rfl)).mp
      (mem_of_mem_codePoints (c := 0x5F) hn)))

/-- Without wildcards, and cut at whole characters, a query is searched literally. -/
theorem like_query_iff (hplain : ¬ HasWildcard query) (hwhole : WholeCharacters query)
    (content : Text) :
    like content (utf16 "%" ++ query ++ utf16 "%") = containsAsciiCase content query := by
  rw [like_query, exactly_of_plain hplain, Bool.eq_iff_iff, matchesPattern_contains_iff,
    codePoints_infix_iff (hwhole.map asciiLower), containsAsciiCase, contains_iff]

theorem searchesLiterally_of_plain (hplain : ¬ HasWildcard query) (hwhole : WholeCharacters query)
    (table : MemoryTable) : SearchesLiterally query table where
  found := by
    have hfilter := List.filter_congr (l := table.rows)
      fun row _ => like_query_iff hplain hwhole row.content
    rw [← hfilter]
    exact rankDesc_perm _
  ordered := ordered_searchMemories query table

/-! ## Every other query -/

/-- A table with one row. -/
def tableWith (content : Text) : MemoryTable :=
  { rows := [{ id := 1, content := content, timestamp := 0 }], lastId := 1 }

theorem primaryKey_tableWith (content : Text) : (tableWith content).PrimaryKey where
  nodup := List.nodup_singleton _
  le_lastId row hrow := by
    rw [List.mem_singleton.mp hrow]
    exact Int.le_refl 1

theorem like_of_searchesLiterally {content : Text}
    (h : SearchesLiterally query (tableWith content)) :
    like content (utf16 "%" ++ query ++ utf16 "%") = containsAsciiCase content query := by
  have hlength := ((rankDesc_perm _).symm.trans h.found).length_eq
  simp only [tableWith, List.filter_cons, List.filter_nil] at hlength
  cases hlike : like content (utf16 "%" ++ query ++ utf16 "%") <;>
    cases hcontains : containsAsciiCase content query <;> simp_all

/-- Writes `x` for each wildcard. -/
def withoutWildcards : UnitMap where
  onUnit c := if c = 0x25 ∨ c = 0x5F then 0x78 else c
  onCodePoint n := if n = 0x25 ∨ n = 0x5F then 0x78 else n
  toNat_onUnit c := by
    have hiff : (c = 0x25 ∨ c = 0x5F) ↔ (c.toNat = 0x25 ∨ c.toNat = 0x5F) := by
      rw [← UInt16.toNat_inj, ← UInt16.toNat_inj]
      rfl
    by_cases h : c = 0x25 ∨ c = 0x5F
    · rw [if_pos h, if_pos (hiff.mp h)]
      rfl
    · rw [if_neg h, if_neg (hiff.not.mp h)]
  isHighSurrogate_onUnit c := by grind [isHighSurrogate]
  isLowSurrogate_onUnit c := by grind [isLowSurrogate]
  onUnit_of_high c h := by grind [isHighSurrogate]
  onUnit_of_low c h := by grind [isLowSurrogate]
  onCodePoint_of_large n h := if_neg (by omega)

theorem accepts_withoutWildcards (n : Nat) :
    (likeSymbol (asciiLower.onCodePoint n)).Accepts
      [asciiLower.onCodePoint (withoutWildcards.onCodePoint n)] := by
  by_cases hwild : n = 0x25 ∨ n = 0x5F
  · rcases hwild with rfl | rfl
    · trivial
    · exact rfl
  · have hkeep : withoutWildcards.onCodePoint n = n := if_neg hwild
    have hlower : asciiLower.onCodePoint n ≠ 0x25 ∧ asciiLower.onCodePoint n ≠ 0x5F := by
      show (if 0x41 ≤ n ∧ n ≤ 0x5A then n + 0x20 else n) ≠ 0x25 ∧
        (if 0x41 ≤ n ∧ n ≤ 0x5A then n + 0x20 else n) ≠ 0x5F
      split <;> omega
    rw [likeSymbol_eq_exactly hlower.1 hlower.2, hkeep]
    exact rfl

/-- A text without wildcards matches a query that has one, and does not contain it. -/
theorem like_of_hasWildcard (h : HasWildcard query) :
    like (query.map withoutWildcards.onUnit) (utf16 "%" ++ query ++ utf16 "%") = true ∧
      containsAsciiCase (query.map withoutWildcards.onUnit) query = false := by
  constructor
  · rw [like_query]
    refine matchesPattern_anywhere_of_forall₂ ?_
    rw [codePoints_map, codePoints_map, codePoints_map, List.forall₂_map_left_iff,
      List.forall₂_map_left_iff, List.forall₂_map_right_iff, List.forall₂_map_right_iff]
    exact List.forall₂_same.mpr fun n _ => accepts_withoutWildcards n
  · rw [← Bool.not_eq_true, containsAsciiCase, contains_iff]
    intro hoccurs
    have hnone : ∀ c : CodeUnit, c = 0x25 ∨ c = 0x5F → c ∉ query.map withoutWildcards.onUnit := by
      intro c hc hmem
      obtain ⟨d, -, hd⟩ := List.mem_map.mp hmem
      have hd : (if d = 0x25 ∨ d = 0x5F then 0x78 else d) = c := hd
      grind
    have hfound : ∀ c : CodeUnit, c = 0x25 ∨ c = 0x5F → c ∉ query := fun c hc hmem =>
      hnone c hc ((mem_map_asciiLower hc).mp (hoccurs.subset ((mem_map_asciiLower hc).mpr hmem)))
    rcases h with h | h
    · exact hfound 0x25 (Or.inl rfl) h
    · exact hfound 0x5F (Or.inr rfl) h

theorem codePoints_cons_of_not_high {c : CodeUnit} (h : isHighSurrogate c = false) (s : Text) :
    codePoints (c :: s) = c.toNat :: codePoints s := by
  have hcut : splitsPair [c] s = false := splitsPair_of_last h
  exact codePoints_append hcut

theorem codePoints_pair {c d : CodeUnit} (hc : isHighSurrogate c = true)
    (hd : isLowSurrogate d = true) (s : Text) :
    codePoints (c :: d :: s) = pairValue c d :: codePoints s := by
  rw [codePoints, if_pos (by rw [hc, hd]; rfl)]

theorem not_high_of_low {c : CodeUnit} (h : isLowSurrogate c = true) :
    isHighSurrogate c = false := by
  grind [isHighSurrogate, isLowSurrogate]

theorem toNat_ne_pairValue (c high low : CodeUnit) : c.toNat ≠ pairValue high low := by
  have hlt : c.toNat < 2 ^ 16 := c.toNat_lt
  unfold pairValue
  omega

/-- The second half of a pair is not found where the pair stands. -/
theorem not_infix_of_low {d : CodeUnit} (hd : isLowSurrogate d = true) (s : Text) :
    ¬ codePoints (d :: s) <:+: codePoints (0xD800 :: d :: s) := by
  rw [codePoints_pair (by decide) hd, codePoints_cons_of_not_high (not_high_of_low hd)]
  intro h
  have heq := h.eq_of_length (by simp)
  exact toNat_ne_pairValue d 0xD800 d (List.cons.inj heq).1

/-- Nor is the first half. -/
theorem not_infix_of_high {c : CodeUnit} (hc : isHighSurrogate c = true) (s : Text) :
    ¬ codePoints (s ++ [c]) <:+: codePoints (s ++ [c, 0xDC00]) := by
  have hlow : isLowSurrogate c = false := by
    rw [← Bool.not_eq_true]
    intro h
    rw [not_high_of_low h] at hc
    cases hc
  have hcut : ∀ t : Text, splitsPair s (c :: t) = false := fun t => splitsPair_of_head hlow
  rw [codePoints_append (hcut []), codePoints_append (hcut [0xDC00]),
    codePoints_pair hc (by decide)]
  intro h
  have heq := h.eq_of_length (by simp [codePoints])
  have hlast := List.append_cancel_left heq
  exact toNat_ne_pairValue c c 0xDC00 (List.cons.inj hlast).1

/-- A query that starts or ends with half of a pair is not found where the other half follows. -/
theorem exists_not_found (hplain : ¬ HasWildcard query) (hhalf : ¬ WholeCharacters query) :
    ∃ content, like content (utf16 "%" ++ query ++ utf16 "%") = false ∧
      containsAsciiCase content query = true := by
  have hlike : ∀ content,
      ¬ codePoints (query.map asciiLower.onUnit) <:+: codePoints (content.map asciiLower.onUnit) →
        like content (utf16 "%" ++ query ++ utf16 "%") = false := by
    intro content h
    rw [like_query, exactly_of_plain hplain, ← Bool.not_eq_true, matchesPattern_contains_iff]
    exact h
  by_cases hlow : query.head?.any isLowSurrogate = true
  · obtain ⟨d, hhead, hd⟩ := (Option.any_eq_true ..).mp hlow
    obtain ⟨s, rfl⟩ := List.head?_eq_some_iff.mp hhead
    refine ⟨0xD800 :: d :: s, hlike _ ?_, ?_⟩
    · have hhigh : asciiLower.onUnit 0xD800 = 0xD800 := by decide
      simp only [List.map_cons, asciiLower.onUnit_of_low d hd, hhigh]
      exact not_infix_of_low hd _
    · rw [containsAsciiCase, contains_iff]
      exact (List.suffix_cons _ _).isInfix
  · have hhigh : query.getLast?.any isHighSurrogate = true := by
      rw [← Bool.not_eq_false]
      exact fun h => hhalf ⟨Bool.eq_false_iff.mpr hlow, h⟩
    obtain ⟨c, hlast, hc⟩ := (Option.any_eq_true ..).mp hhigh
    obtain ⟨s, rfl⟩ := List.getLast?_eq_some_iff.mp hlast
    refine ⟨s ++ [c, 0xDC00], hlike _ ?_, ?_⟩
    · rw [List.map_append, List.map_append, List.map_cons, List.map_cons,
        asciiLower.onUnit_of_high c hc]
      exact not_infix_of_high hc _
    · rw [containsAsciiCase, contains_iff]
      refine (List.IsPrefix.map _ ?_).isInfix
      exact ⟨[0xDC00], by simp⟩

/--
**The search is literal exactly for the queries without wildcards that are whole characters.**

Ill-formed texts aside, every text is made of whole characters.
-/
theorem searchesLiterally_iff (query : Text) :
    (∀ table : MemoryTable, table.PrimaryKey → SearchesLiterally query table) ↔
      ¬ HasWildcard query ∧ WholeCharacters query := by
  constructor
  · intro h
    have hlike := fun content => like_of_searchesLiterally (h _ (primaryKey_tableWith content))
    have hplain : ¬ HasWildcard query := by
      intro hwild
      obtain ⟨hmatches, hnot⟩ := like_of_hasWildcard hwild
      rw [hlike, hnot] at hmatches
      cases hmatches
    refine ⟨hplain, ?_⟩
    by_contra hhalf
    obtain ⟨content, hnot, hcontains⟩ := exists_not_found hplain hhalf
    rw [hlike, hcontains] at hnot
    cases hnot
  · rintro ⟨hplain, hwhole⟩ table -
    exact searchesLiterally_of_plain hplain hwhole table

/-- Searching for `100%` finds a memory that does not contain it. -/
theorem percent_not_literal :
    (tableWith (utf16 "User said: I ran 100 meters")).PrimaryKey ∧
      ¬ SearchesLiterally (utf16 "100%") (tableWith (utf16 "User said: I ran 100 meters")) := by
  refine ⟨primaryKey_tableWith _, fun h => ?_⟩
  have hfound := h.found.length_eq
  exact absurd hfound (by decide +kernel)

end Kaede
