import Mathlib.Data.List.Infix

/-!
# Where a word can occur in a text made of pieces

A word that does not contain the separator occurs in a text exactly when it occurs in one of the
pieces between the separators. Nothing here knows what the pieces are.
-/

namespace Kaede.Infra

variable {α : Type*}

/-- A word never crosses a separator that it does not contain. -/
theorem infix_append_cons_iff {p a b : List α} {x : α} (hx : x ∉ p) :
    p <:+: a ++ x :: b ↔ p <:+: a ∨ p <:+: b := by
  constructor
  · rintro ⟨u, v, h⟩
    rw [List.append_assoc] at h
    rcases List.append_eq_append_iff.mp h with ⟨w, rfl, hw⟩ | ⟨w, rfl, hw⟩
    · -- the occurrence starts at or before the separator
      rcases List.append_eq_append_iff.mp hw with ⟨w', rfl, _⟩ | ⟨w', hp, hw'⟩
      · exact Or.inl ⟨u, w', List.append_assoc ..⟩
      · cases w' with
        | nil => rw [List.append_nil] at hp; exact Or.inl ⟨u, [], by rw [hp]; simp⟩
        | cons y ys =>
          rw [List.cons_append, List.cons.injEq] at hw'
          exact absurd (by rw [hp, hw'.1]; simp) hx
    · -- the occurrence starts after the separator, or at it and then the word is empty
      cases w with
      | nil =>
        cases p with
        | nil => exact Or.inl List.nil_infix
        | cons y ys =>
          rw [List.nil_append, List.cons_append, List.cons.injEq] at hw
          exact absurd (by rw [hw.1]; simp) hx
      | cons y ys =>
        rw [List.cons_append, List.cons.injEq] at hw
        exact Or.inr ⟨ys, v, by rw [List.append_assoc]; exact hw.2.symm⟩
  · rintro (h | h)
    · exact List.infix_append_of_infix_left h
    · exact List.infix_append_of_infix_right (List.infix_cons h)

/-- A symbol that the word does not start with can be dropped from the front. -/
theorem infix_cons_of_head?_ne {p s : List α} {x : α} (hp : p ≠ []) (hx : p.head? ≠ some x) :
    p <:+: x :: s ↔ p <:+: s := by
  rw [List.infix_cons_iff]
  refine or_iff_right ?_
  rintro ⟨v, h⟩
  cases p with
  | nil => exact hp rfl
  | cons y ys =>
    rw [List.cons_append, List.cons.injEq] at h
    exact hx (by rw [h.1]; rfl)

/-- The lines, each ended by the separator. -/
def unlines (sep : α) (lines : List (List α)) : List α := lines.flatMap fun l => l ++ [sep]

@[simp] theorem unlines_nil (sep : α) : unlines sep [] = [] := rfl

@[simp] theorem unlines_cons (sep : α) (l : List α) (ls : List (List α)) :
    unlines sep (l :: ls) = l ++ sep :: unlines sep ls := by
  simp [unlines]

@[simp] theorem unlines_append (sep : α) (ls ms : List (List α)) :
    unlines sep (ls ++ ms) = unlines sep ls ++ unlines sep ms := List.flatMap_append ..

/-- A word without the separator occurs in a block of lines and what follows it exactly when it
occurs in one of the lines or in what follows. -/
theorem infix_unlines_append_iff {p rest : List α} {sep : α} (hsep : sep ∉ p)
    (lines : List (List α)) :
    p <:+: unlines sep lines ++ rest ↔ (∃ l ∈ lines, p <:+: l) ∨ p <:+: rest := by
  induction lines with
  | nil => simp
  | cons l ls ih =>
    rw [unlines_cons, List.append_assoc, List.cons_append, infix_append_cons_iff hsep, ih]
    simp only [List.mem_cons, exists_eq_or_imp, or_assoc]

/-! ## Neighbours -/

theorem pair_infix_cons_iff {a b x : α} {l : List α} :
    [a, b] <:+: x :: l ↔ (x = a ∧ l.head? = some b) ∨ [a, b] <:+: l := by
  rw [List.infix_cons_iff, List.cons_prefix_cons, eq_comm (a := a)]
  cases l with
  | nil => simp
  | cons y l => simp [eq_comm (a := b)]

/-- Two neighbours stand on the left, in the middle, or on the right. -/
theorem pair_infix_append_iff {a b : α} {l r : List α} :
    [a, b] <:+: l ++ r ↔
      [a, b] <:+: l ∨ (l.getLast? = some a ∧ r.head? = some b) ∨ [a, b] <:+: r := by
  induction l with
  | nil => simp
  | cons x l ih =>
    rw [List.cons_append, pair_infix_cons_iff, pair_infix_cons_iff, ih]
    cases l with
    | nil => simp
    | cons y l => simp [or_assoc]

/-- Neighbours are at consecutive indices. -/
theorem pair_infix_iff_getElem? {a b : α} {l : List α} :
    [a, b] <:+: l ↔ ∃ i, l[i]? = some a ∧ l[i + 1]? = some b := by
  induction l with
  | nil => simp
  | cons x l ih =>
    rw [pair_infix_cons_iff, ih]
    constructor
    · rintro (⟨rfl, hhead⟩ | ⟨i, ha, hb⟩)
      · exact ⟨0, rfl, List.head?_eq_getElem? ▸ hhead⟩
      · exact ⟨i + 1, ha, hb⟩
    · rintro ⟨i, ha, hb⟩
      cases i with
      | zero => exact .inl ⟨Option.some.inj ha, List.head?_eq_getElem? ▸ hb⟩
      | succ i => exact .inr ⟨i, ha, hb⟩

end Kaede.Infra
