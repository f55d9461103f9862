import Kaede.Infra.Infix
import Mathlib.Data.List.Chain
import Mathlib.Data.List.DropRight

/-!
# Words and the spaces between them

A text is a list of symbols, and some of the symbols are spaces.

* `Stretch` — some runs of spaces have been made longer
* `Stretch.occurs` — no phrase comes to be in the text by it
* `Stretch.kept` — no phrase of one word is lost by it
* `infix_strip_iff` — no phrase is lost when the ends of the text are stripped
* `fill` — every run of spaces made longer, by a filler after each space
* `noSpace_of_infix_fill` — a filler of another space tears all phrases but those of one word
-/

namespace Kaede.Infra

variable {α : Type*} {isSpace : α → Bool} {p r s t s' t' : List α} {x : α}

/-! ## Words -/

/-- The maximal runs of symbols that are not spaces. -/
def words (isSpace : α → Bool) (s : List α) : List (List α) :=
  (s.splitOnP isSpace).filter fun word => !word.isEmpty

/-- What is left when the marks at both ends are taken off. -/
def strip (isMark : α → Bool) (s : List α) : List α := (s.dropWhile isMark).rdropWhile isMark

theorem length_splitOn [BEq α] [LawfulBEq α] (sep : α) (s : List α) :
    (s.splitOn sep).length = s.count sep + 1 := by
  induction s with
  | nil => rfl
  | cons x s ih =>
    rw [List.splitOn_cons_eq_if_modifyHead]
    by_cases hx : (x == sep) = true
    · rw [if_pos hx, List.length_cons, ih, eq_of_beq hx, List.count_cons_self]
    · rw [if_neg hx, List.length_modifyHead, ih, List.count_cons_of_ne fun h => hx (by simp [h])]

/-- Words split at a space. -/
theorem words_append_cons (hx : isSpace x = true) :
    words isSpace (s ++ x :: t) = words isSpace s ++ words isSpace t := by
  rw [words, List.splitOnP_append_cons s t hx, List.filter_append]
  rfl

theorem words_nil : words isSpace [] = [] := by
  rw [words, List.splitOnP_nil]
  rfl

theorem words_dropWhile : words isSpace (s.dropWhile isSpace) = words isSpace s := by
  induction s with
  | nil => rfl
  | cons x s ih =>
    by_cases hx : isSpace x = true
    · have hsplit : words isSpace ([] ++ x :: s) = words isSpace [] ++ words isSpace s :=
        words_append_cons hx
      rw [List.dropWhile_cons_of_pos hx, ih, ← List.nil_append (x :: s), hsplit, words_nil,
        List.nil_append]
    · rw [List.dropWhile_cons_of_neg hx]

theorem words_rdropWhile : words isSpace (s.rdropWhile isSpace) = words isSpace s := by
  induction s using List.reverseRecOn with
  | nil => rfl
  | append_singleton s x ih =>
    by_cases hx : isSpace x = true
    · rw [List.rdropWhile_concat_pos _ _ _ hx, ih, words_append_cons hx, words_nil,
        List.append_nil]
    · rw [List.rdropWhile_concat_neg _ _ _ hx]

theorem words_strip : words isSpace (strip isSpace s) = words isSpace s := by
  rw [strip, words_rdropWhile, words_dropWhile]

/-- Without a space there is one word at most. -/
theorem length_words_le_one (h : ∀ x ∈ s, isSpace x = false) :
    (words isSpace s).length ≤ 1 := by
  rw [words, List.splitOnP_eq_singleton h]
  exact List.length_filter_le _ [s]

/-! ## Longer runs of spaces -/

/-- Some runs of spaces have been made longer. -/
inductive Stretch (isSpace : α → Bool) : List α → List α → Prop where
  | nil : Stretch isSpace [] []
  | cons (x : α) {s s' : List α} (h : Stretch isSpace s s') : Stretch isSpace (x :: s) (x :: s')
  | run {r r' s s' : List α} (hrun : r ≠ []) (hlonger : r.Sublist r')
    (hspaces : ∀ x ∈ r', isSpace x = true) (h : Stretch isSpace s s') :
    Stretch isSpace (r ++ s) (r' ++ s')

namespace Stretch

theorem refl (s : List α) : Stretch isSpace s s := by
  induction s with
  | nil => exact .nil
  | cons x s ih => exact .cons x ih

theorem append (h : Stretch isSpace s s') (h' : Stretch isSpace t t') :
    Stretch isSpace (s ++ t) (s' ++ t') := by
  induction h with
  | nil => exact h'
  | cons x _ ih => exact .cons x ih
  | run hrun hlonger hspaces _ ih =>
    rw [List.append_assoc, List.append_assoc]
    exact .run hrun hlonger hspaces ih

theorem reverse (h : Stretch isSpace s s') : Stretch isSpace s.reverse s'.reverse := by
  induction h with
  | nil => exact .nil
  | cons x _ ih =>
    rw [List.reverse_cons, List.reverse_cons]
    exact ih.append (refl [x])
  | @run r r' _ _ hrun hlonger hspaces _ ih =>
    have hreversed : Stretch isSpace (r.reverse ++ []) (r'.reverse ++ []) :=
      .run (by simpa using hrun) (List.reverse_sublist.mpr hlonger) (by simpa using hspaces) .nil
    rw [List.append_nil, List.append_nil] at hreversed
    rw [List.reverse_append, List.reverse_append]
    exact ih.append hreversed

theorem sublist (h : Stretch isSpace s s') : s.Sublist s' := by
  induction h with
  | nil => exact List.Sublist.refl _
  | cons x _ ih => exact ih.cons_cons x
  | run _ hlonger _ _ ih => exact hlonger.append ih

/-- Symbol by symbol, as long as the spaces are left alone. -/
theorem flatMap {f : α → List α} (hf : ∀ x, isSpace x = true → f x = [x])
    (h : Stretch isSpace s s') : Stretch isSpace (s.flatMap f) (s'.flatMap f) := by
  have hspaces : ∀ l : List α, (∀ x ∈ l, isSpace x = true) → l.flatMap f = l := by
    intro l hl
    induction l with
    | nil => rfl
    | cons x l ih =>
      rw [List.forall_mem_cons] at hl
      rw [List.flatMap_cons, hf x hl.1, ih hl.2]
      rfl
  induction h with
  | nil => exact .nil
  | cons x _ ih =>
    rw [List.flatMap_cons, List.flatMap_cons]
    exact (refl (f x)).append ih
  | run hrun hlonger hall _ ih =>
    rw [List.flatMap_append, List.flatMap_append, hspaces _ hall,
      hspaces _ fun x hx => hall x (hlonger.subset hx)]
    exact .run hrun hlonger hall ih

/-- Without a space no run can be made longer. -/
theorem eq_of_noSpace (h : Stretch isSpace s s') (hs : ∀ x ∈ s, isSpace x = false) : s' = s := by
  induction h with
  | nil => rfl
  | cons x _ ih => rw [ih (List.forall_mem_cons.mp hs).2]
  | run hrun hlonger hspaces _ _ =>
    obtain ⟨x, hx⟩ := List.exists_mem_of_ne_nil _ hrun
    have hspace := hspaces x (hlonger.subset hx)
    rw [hs x (List.mem_append_left _ hx)] at hspace
    cases hspace

section Strip

variable {isMark : α → Bool} (hmark : ∀ x, isSpace x = true → isMark x = true)
include hmark

theorem dropWhile (h : Stretch isSpace s s') :
    Stretch isSpace (s.dropWhile isMark) (s'.dropWhile isMark) := by
  induction h with
  | nil => exact .nil
  | cons x h ih =>
    by_cases hx : isMark x = true
    · rwa [List.dropWhile_cons_of_pos hx, List.dropWhile_cons_of_pos hx]
    · rw [List.dropWhile_cons_of_neg hx, List.dropWhile_cons_of_neg hx]
      exact .cons x h
  | run hrun hlonger hspaces h ih =>
    rwa [List.dropWhile_append_of_pos fun x hx => hmark x (hspaces x (hlonger.subset hx)),
      List.dropWhile_append_of_pos fun x hx => hmark x (hspaces x hx)]

theorem strip (h : Stretch isSpace s s') : Stretch isSpace (strip isMark s) (strip isMark s') :=
  ((h.dropWhile hmark).reverse.dropWhile hmark).reverse

end Strip

end Stretch

/-! ## Phrases -/

/-- A phrase: it starts and ends with a symbol of a word, and its words are one space apart. -/
def IsPhrase (isSpace : α → Bool) (p : List α) : Prop :=
  p.head?.any (fun x => !isSpace x) = true ∧ p.getLast?.any (fun x => !isSpace x) = true ∧
    p.IsChain fun x y => ¬ (isSpace x = true ∧ isSpace y = true)

instance [DecidableEq α] (isSpace : α → Bool) (p : List α) : Decidable (IsPhrase isSpace p) :=
  inferInstanceAs (Decidable (_ ∧ _ ∧ _))

namespace IsPhrase

theorem ne_nil (h : IsPhrase isSpace p) : p ≠ [] := by
  rintro rfl
  cases h.1

theorem head?_ne (h : IsPhrase isSpace p) (hx : isSpace x = true) : p.head? ≠ some x := by
  intro hhead
  have hnot := h.1
  simp [hhead, hx] at hnot

theorem reverse (h : IsPhrase isSpace p) : IsPhrase isSpace p.reverse := by
  refine ⟨?_, ?_, ?_⟩
  · rw [List.head?_reverse]
    exact h.2.1
  · rw [List.getLast?_reverse]
    exact h.1
  · rw [List.isChain_reverse]
    exact h.2.2.imp fun x y hxy hboth => hxy hboth.symm

end IsPhrase

/-- A phrase does not start in a run of spaces. -/
theorem infix_spaces_append_iff (hp : IsPhrase isSpace p) (hr : ∀ x ∈ r, isSpace x = true) :
    p <:+: r ++ s ↔ p <:+: s := by
  induction r with
  | nil => rfl
  | cons x r ih =>
    rw [List.forall_mem_cons] at hr
    rw [List.cons_append, infix_cons_of_head?_ne hp.ne_nil (hp.head?_ne hr.1), ih hr.2]

theorem infix_dropWhile_iff (hp : IsPhrase isSpace p) :
    p <:+: s.dropWhile isSpace ↔ p <:+: s := by
  induction s with
  | nil => rfl
  | cons x s ih =>
    by_cases hx : isSpace x = true
    · rw [List.dropWhile_cons_of_pos hx, ih, infix_cons_of_head?_ne hp.ne_nil (hp.head?_ne hx)]
    · rw [List.dropWhile_cons_of_neg hx]

theorem infix_strip_iff (hp : IsPhrase isSpace p) : p <:+: strip isSpace s ↔ p <:+: s := by
  rw [strip, List.rdropWhile, ← List.reverse_infix, List.reverse_reverse,
    infix_dropWhile_iff hp.reverse, List.reverse_infix, infix_dropWhile_iff hp]

theorem getLast?_tail {P : α → Prop} (h : ∀ y ∈ (x :: p).getLast?, P y) :
    ∀ y ∈ p.getLast?, P y := by
  cases p with
  | nil => nofun
  | cons z p => rwa [List.getLast?_cons_cons] at h

/-- What starts the stretched text and ends with a symbol of a word starts the text. -/
theorem Stretch.starts (h : Stretch isSpace s s')
    (hlast : ∀ x ∈ p.getLast?, isSpace x = false)
    (hchain : p.IsChain fun x y => ¬ (isSpace x = true ∧ isSpace y = true)) (hp : p <+: s') :
    p <+: s := by
  induction h generalizing p with
  | nil => exact hp
  | cons x h ih =>
    cases p with
    | nil => exact List.nil_prefix
    | cons y p =>
      obtain ⟨rfl, htail⟩ := List.cons_prefix_cons.mp hp
      exact List.cons_prefix_cons.mpr ⟨rfl, ih (getLast?_tail hlast) hchain.tail htail⟩
  | @run r r' s s' hrun hlonger hspaces h ih =>
    cases p with
    | nil => exact List.nil_prefix
    | cons y p =>
      obtain ⟨z, rest, rfl⟩ := List.exists_cons_of_ne_nil fun hnil : r' = [] =>
        hrun (List.sublist_nil.mp (hnil ▸ hlonger))
      rw [List.forall_mem_cons] at hspaces
      obtain ⟨rfl, htail⟩ := List.cons_prefix_cons.mp hp
      cases rest with
      | nil =>
        -- one space, so the run is as long as it was
        rw [(List.sublist_singleton.mp hlonger).resolve_left hrun]
        exact List.cons_prefix_cons.mpr ⟨rfl, ih (getLast?_tail hlast) hchain.tail htail⟩
      | cons z' rest =>
        -- two spaces, but only one of them could be part of it, and then not at its end
        exfalso
        cases p with
        | nil =>
          have hword := hlast y rfl
          rw [hspaces.1] at hword
          cases hword
        | cons y' p =>
          obtain ⟨rfl, -⟩ := List.cons_prefix_cons.mp htail
          exact (List.isChain_cons_cons.mp hchain).1 ⟨hspaces.1, hspaces.2 y' (by simp)⟩

/-- A phrase that occurs in the stretched text occurs in the text. -/
theorem Stretch.occurs (h : Stretch isSpace s s') (hphrase : IsPhrase isSpace p)
    (hp : p <:+: s') : p <:+: s := by
  have hlast : ∀ x ∈ p.getLast?, isSpace x = false := by
    intro x hx
    have hword := hphrase.2.1
    rw [Option.mem_def.mp hx] at hword
    simpa using hword
  induction h with
  | nil => exact hp
  | cons x h ih =>
    rw [List.infix_cons_iff] at hp ⊢
    exact hp.imp ((Stretch.cons x h).starts hlast hphrase.2.2) ih
  | run hrun hlonger hspaces h ih =>
    rw [infix_spaces_append_iff hphrase hspaces] at hp
    exact List.infix_append_of_infix_right (ih hp)

/-- What starts the text and has no space starts the stretched text. -/
theorem Stretch.kept_start (h : Stretch isSpace s s') (hword : ∀ x ∈ p, isSpace x = false)
    (hp : p <+: s) : p <+: s' := by
  induction h generalizing p with
  | nil => exact hp
  | cons x _ ih =>
    cases p with
    | nil => exact List.nil_prefix
    | cons y p =>
      obtain ⟨rfl, htail⟩ := List.cons_prefix_cons.mp hp
      exact List.cons_prefix_cons.mpr ⟨rfl, ih (List.forall_mem_cons.mp hword).2 htail⟩
  | @run r r' s s' hrun hlonger hspaces _ _ =>
    cases p with
    | nil => exact List.nil_prefix
    | cons y p =>
      -- the run starts with a space, the phrase does not
      obtain ⟨z, rest, rfl⟩ := List.exists_cons_of_ne_nil hrun
      obtain ⟨rfl, -⟩ := List.cons_prefix_cons.mp hp
      have hspace := hspaces y (hlonger.subset List.mem_cons_self)
      rw [(List.forall_mem_cons.mp hword).1] at hspace
      cases hspace

/-- A phrase of one word that occurs in the text still does when it is stretched. -/
theorem Stretch.kept (h : Stretch isSpace s s') (hphrase : IsPhrase isSpace p)
    (hword : ∀ x ∈ p, isSpace x = false) (hp : p <:+: s) : p <:+: s' := by
  induction h with
  | nil => exact hp
  | cons x h ih =>
    rw [List.infix_cons_iff] at hp ⊢
    exact hp.imp ((Stretch.cons x h).kept_start hword) ih
  | run hrun hlonger hspaces h ih =>
    rw [infix_spaces_append_iff hphrase fun x hx => hspaces x (hlonger.subset hx)] at hp
    exact List.infix_append_of_infix_right (ih hp)

/-! ## Filling the runs -/

/-- Every space, with a filler after it. -/
def fill (isSpace : α → Bool) (filler s : List α) : List α :=
  s.flatMap fun x => if isSpace x = true then x :: filler else [x]

section Fill

variable {filler : List α}

@[simp] theorem fill_nil : fill isSpace filler [] = [] := rfl

theorem fill_cons_of_pos (hx : isSpace x = true) :
    fill isSpace filler (x :: s) = x :: (filler ++ fill isSpace filler s) := by
  rw [fill, List.flatMap_cons, if_pos hx]
  rfl

theorem fill_cons_of_neg (hx : ¬ isSpace x = true) :
    fill isSpace filler (x :: s) = x :: fill isSpace filler s := by
  rw [fill, List.flatMap_cons, if_neg hx]
  rfl

theorem fill_append :
    fill isSpace filler (s ++ t) = fill isSpace filler s ++ fill isSpace filler t :=
  List.flatMap_append

theorem fill_of_noSpace (hs : ∀ x ∈ s, isSpace x = false) : fill isSpace filler s = s := by
  induction s with
  | nil => rfl
  | cons x s ih =>
    rw [List.forall_mem_cons] at hs
    rw [fill_cons_of_neg (by simp [hs.1]), ih hs.2]

theorem count_fill [BEq α] [LawfulBEq α] (y : α) :
    (fill isSpace filler s).count y = s.count y + s.countP isSpace * filler.count y := by
  induction s with
  | nil => simp
  | cons x s ih =>
    by_cases hx : isSpace x = true
    · rw [fill_cons_of_pos hx, List.count_cons, List.count_append, ih, List.count_cons,
        List.countP_cons_of_pos hx, Nat.succ_mul]
      omega
    · rw [fill_cons_of_neg hx, List.count_cons, ih, List.count_cons, List.countP_cons_of_neg hx]
      omega

section Spaces

variable (hfiller : ∀ x ∈ filler, isSpace x = true)
include hfiller

theorem stretch_fill : Stretch isSpace s (fill isSpace filler s) := by
  induction s with
  | nil => exact .nil
  | cons x s ih =>
    by_cases hx : isSpace x = true
    · rw [fill_cons_of_pos hx]
      exact .run (List.cons_ne_nil x []) (List.singleton_sublist.mpr List.mem_cons_self)
        (List.forall_mem_cons.mpr ⟨hx, hfiller⟩) ih
    · rw [fill_cons_of_neg hx]
      exact .cons x ih

theorem dropWhile_fill :
    (fill isSpace filler s).dropWhile isSpace = fill isSpace filler (s.dropWhile isSpace) := by
  induction s with
  | nil => rfl
  | cons x s ih =>
    by_cases hx : isSpace x = true
    · rw [fill_cons_of_pos hx, List.dropWhile_cons_of_pos hx, List.dropWhile_cons_of_pos hx,
        List.dropWhile_append_of_pos hfiller, ih]
    · rw [fill_cons_of_neg hx, List.dropWhile_cons_of_neg hx, List.dropWhile_cons_of_neg hx,
        fill_cons_of_neg hx]

theorem rdropWhile_fill :
    (fill isSpace filler s).rdropWhile isSpace = fill isSpace filler (s.rdropWhile isSpace) := by
  induction s using List.reverseRecOn with
  | nil => rfl
  | append_singleton s x ih =>
    by_cases hx : isSpace x = true
    · have hrun : ∀ y ∈ x :: filler, isSpace y = true := List.forall_mem_cons.mpr ⟨hx, hfiller⟩
      rw [fill_append, fill_cons_of_pos hx, fill_nil, List.append_nil,
        List.rdropWhile_concat_pos _ _ _ hx, ← ih, List.rdropWhile, List.reverse_append,
        List.dropWhile_append_of_pos fun y hy => hrun y (List.mem_reverse.mp hy),
        List.rdropWhile]
    · rw [fill_append, fill_cons_of_neg hx, fill_nil, List.rdropWhile_concat_neg _ _ _ hx,
        List.rdropWhile_concat_neg _ _ _ hx, fill_append, fill_cons_of_neg hx, fill_nil]

theorem strip_fill :
    strip isSpace (fill isSpace filler s) = fill isSpace filler (strip isSpace s) := by
  rw [strip, dropWhile_fill hfiller, rdropWhile_fill hfiller, strip]

end Spaces

/-- After a space of the filled text comes the filler. -/
theorem isChain_fill (t : α) (s : List α) :
    (fill isSpace [t] s).IsChain fun x y => isSpace x = true → x = t ∨ y = t := by
  induction s with
  | nil => exact List.isChain_nil
  | cons x s ih =>
    by_cases hx : isSpace x = true
    · rw [fill_cons_of_pos hx]
      refine List.isChain_cons_cons.mpr ⟨fun _ => .inr rfl, ?_⟩
      exact List.isChain_cons.mpr ⟨fun y _ _ => .inl rfl, ih⟩
    · rw [fill_cons_of_neg hx]
      exact List.isChain_cons.mpr ⟨fun y _ hspace => absurd hspace hx, ih⟩

/-- A phrase without the filler that occurs in the filled text is one word. -/
theorem noSpace_of_infix_fill {y : α} (hphrase : IsPhrase isSpace p) (hy : y ∉ p)
    (hp : p <:+: fill isSpace [y] s) : ∀ x ∈ p, isSpace x = false := by
  obtain ⟨before, after, heq⟩ := hp
  have hchain : (fill isSpace [y] s).IsChain _ := isChain_fill y s
  rw [← heq] at hchain
  replace hchain := hchain.left_of_append.right_of_append
  have hlast := hphrase.2.1
  clear hphrase heq
  induction p with
  | nil => nofun
  | cons x p ih =>
    obtain ⟨hxy, hyp⟩ := not_or.mp (List.mem_cons.not.mp hy)
    cases p with
    | nil => simpa using hlast
    | cons z p =>
      obtain ⟨hnext, hrest⟩ := List.isChain_cons_cons.mp hchain
      rw [List.getLast?_cons_cons] at hlast
      refine List.forall_mem_cons.mpr ⟨?_, ih hyp hrest hlast⟩
      refine Bool.eq_false_iff.mpr fun hspace => ?_
      rcases hnext hspace with rfl | rfl
      · exact hxy rfl
      · exact hyp List.mem_cons_self

end Fill

end Kaede.Infra
