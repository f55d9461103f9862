import Kaede.Infra.Infix

/-!
# Lines and blocks of lines

* `splitOn_unlines_append` — splitting a text of lines that may hold separators themselves
* `Unbordered.left_eq`, `Unbordered.right_eq` — a separator that does not overlap itself is found again,
  as the first or as the last one
* `blocks_flatten` — blocks that each start with a marked element and hold no other can be found
  again
-/

namespace Kaede.Infra

variable {α : Type*}

/-! ## Splitting -/

section Split

variable [BEq α] [LawfulBEq α] {sep : α}

theorem splitOn_unlines_append (ls : List (List α)) (rest : List α) :
    (unlines sep ls ++ rest).splitOn sep =
      ls.flatMap (·.splitOn sep) ++ rest.splitOn sep := by
  induction ls with
  | nil => rfl
  | cons l ls ih =>
    rw [unlines_cons, List.append_assoc, List.cons_append, List.splitOn_append_cons_self, ih,
      List.flatMap_cons, List.append_assoc]

/-- A label without separators goes to the first line. -/
theorem splitOn_label_append {label : List α} (h : sep ∉ label) (s : List α) :
    ∃ first, (label ++ s).splitOn sep = (label ++ first) :: (s.splitOn sep).tail := by
  induction label with
  | nil =>
    obtain ⟨first, rest, hs⟩ := List.exists_cons_of_ne_nil (List.splitOn_ne_nil sep s)
    exact ⟨first, by rw [List.nil_append, List.nil_append, hs, List.tail_cons]⟩
  | cons c label ih =>
    rw [List.mem_cons, not_or] at h
    obtain ⟨first, hfirst⟩ := ih h.2
    have hc : ¬ (c == sep) = true := fun heq => h.1 (eq_of_beq heq).symm
    refine ⟨first, ?_⟩
    rw [List.cons_append, List.splitOn_cons_eq_if_modifyHead, if_neg hc, hfirst]
    rfl

end Split

/-! ## Separators of several symbols -/

/-- No proper end of the word is also a start of it, so that two occurrences never overlap. -/
def Unbordered (w : List α) : Prop := ∀ n < w.length, 0 < n → ¬ w.drop n <+: w

instance [DecidableEq α] (w : List α) : Decidable (Unbordered w) :=
  inferInstanceAs (Decidable (∀ n < w.length, 0 < n → ¬ w.drop n <+: w))

namespace Unbordered

variable {w u u' r r' : List α}

/-- The occurrence that starts later starts behind the other one. -/
theorem apart (hw : Unbordered w) (h : u ++ w ++ r = u' ++ w ++ r') (hlt : u.length < u'.length) :
    ∃ d, u' = u ++ w ++ d ∧ r = d ++ w ++ r' := by
  rw [List.append_assoc, List.append_assoc] at h
  rcases List.append_eq_append_iff.mp h with ⟨a, rfl, ha⟩ | ⟨c, rfl, -⟩
  · rcases List.append_eq_append_iff.mp ha with ⟨d, rfl, rfl⟩ | ⟨e, he, hr⟩
    · exact ⟨d, (List.append_assoc ..).symm, (List.append_assoc ..).symm⟩
    · -- the later one starts inside the other one, or right at its end
      have hpos : 0 < a.length := by
        rw [List.length_append] at hlt
        omega
      have hdrop : w.drop a.length = e := by rw [he, List.drop_left]
      have hprefix : e <+: w :=
        List.prefix_of_prefix_length_le ⟨r, hr.symm⟩ ⟨r', rfl⟩ (by rw [he]; simp)
      by_cases hle : a.length < w.length
      · exact absurd (hdrop ▸ hprefix) (hw a.length hle hpos)
      · have hnil : e = [] := by rw [← hdrop, List.drop_of_length_le (Nat.not_lt.mp hle)]
        subst hnil
        rw [List.append_nil] at he
        subst he
        exact ⟨[], by simp, by simpa using hr.symm⟩
  · rw [List.length_append] at hlt
    omega

/-- If what comes before holds no separator, the first one is found again. -/
theorem left_eq (hw : Unbordered w) (h : u ++ w ++ r = u' ++ w ++ r') (hu : ¬ w <:+: u)
    (hu' : ¬ w <:+: u') : u = u' ∧ r = r' := by
  rcases Nat.lt_trichotomy u.length u'.length with hlt | heq | hgt
  · obtain ⟨d, rfl, -⟩ := hw.apart h hlt
    exact absurd ⟨u, d, rfl⟩ hu'
  · rw [List.append_assoc, List.append_assoc] at h
    obtain ⟨rfl, hrest⟩ := List.append_inj h heq
    exact ⟨rfl, List.append_cancel_left hrest⟩
  · obtain ⟨d, rfl, -⟩ := hw.apart h.symm hgt
    exact absurd ⟨u', d, rfl⟩ hu

/-- If what comes after holds no separator, the last one is found again. -/
theorem right_eq (hw : Unbordered w) (h : u ++ w ++ r = u' ++ w ++ r') (hr : ¬ w <:+: r)
    (hr' : ¬ w <:+: r') : u = u' ∧ r = r' := by
  rcases Nat.lt_trichotomy u.length u'.length with hlt | heq | hgt
  · obtain ⟨d, -, rfl⟩ := hw.apart h hlt
    exact absurd ⟨d, r', rfl⟩ hr
  · rw [List.append_assoc, List.append_assoc] at h
    obtain ⟨rfl, hrest⟩ := List.append_inj h heq
    exact ⟨rfl, List.append_cancel_left hrest⟩
  · obtain ⟨d, -, rfl⟩ := hw.apart h.symm hgt
    exact absurd ⟨d, r, rfl⟩ hr'

end Unbordered

/-! ## Blocks -/

/-- Split before each marked element. The first component is what comes before all of them. -/
def blocks (p : α → Bool) : List α → List α × List (List α)
  | [] => ([], [])
  | x :: xs =>
    let (before, bs) := blocks p xs
    if p x then ([], (x :: before) :: bs) else (x :: before, bs)

/-- The list starts with a marked element and has no other. -/
def IsBlock (p : α → Bool) (b : List α) : Prop :=
  ∃ x xs, b = x :: xs ∧ p x = true ∧ ∀ y ∈ xs, p y = false

variable {p : α → Bool}

theorem blocks_append {xs : List α} (h : ∀ x ∈ xs, p x = false) (l : List α) :
    blocks p (xs ++ l) = (xs ++ (blocks p l).1, (blocks p l).2) := by
  induction xs with
  | nil => rfl
  | cons x xs ih =>
    obtain ⟨hx, hxs⟩ := List.forall_mem_cons.mp h
    rw [List.cons_append, blocks, ih hxs, hx]
    rfl

/-- **The blocks are found again.** -/
theorem blocks_flatten {bs : List (List α)} (h : ∀ b ∈ bs, IsBlock p b) :
    blocks p bs.flatten = ([], bs) := by
  induction bs with
  | nil => rfl
  | cons b bs ih =>
    obtain ⟨⟨x, xs, rfl, hx, hxs⟩, hbs⟩ := List.forall_mem_cons.mp h
    rw [List.flatten_cons, List.cons_append, blocks, blocks_append hxs, ih hbs, hx, List.append_nil]
    rfl

end Kaede.Infra
