import Mathlib.Order.Lattice
import Mathlib.Order.MinMax
import Mathlib.Order.OrderDual
import Mathlib.Data.List.Find
import Mathlib.Data.List.Induction
import Mathlib.Data.List.Perm.Basic
import Mathlib.Data.List.TakeDrop

/-!
# Ranking by a key

`rankDesc key l` lists `l` with the highest key first. Elements with equal keys stay in the order
of `l`. It is built by inserting one element after the other, so that what a new element does to
the first `n` of the ranking can be read off the first `n` alone (`take_rankDesc_concat`): whoever
is not among them never matters again.

A `Sorter` is any other way to put a list in order. It says nothing about equal keys.
-/

namespace Kaede.Infra

variable {α β κ : Type*} [LinearOrder κ] {key : α → κ}

/-- Insert below everything that ranks as high. -/
def insertDesc (key : α → κ) (x : α) : List α → List α
  | [] => [x]
  | y :: ys => if key y < key x then x :: y :: ys else y :: insertDesc key x ys

def rankDesc (key : α → κ) (l : List α) : List α := l.foldl (fun acc x => insertDesc key x acc) []

theorem rankDesc_concat (l : List α) (x : α) :
    rankDesc key (l ++ [x]) = insertDesc key x (rankDesc key l) := by
  rw [rankDesc, List.foldl_append]
  rfl

/-! ## What a ranking is -/

theorem insertDesc_perm (x : α) (l : List α) : (insertDesc key x l).Perm (x :: l) := by
  induction l with
  | nil => exact List.Perm.refl _
  | cons y ys ih =>
    rw [insertDesc]
    split
    · exact List.Perm.refl _
    · exact (ih.cons y).trans (List.Perm.swap x y ys)

theorem rankDesc_perm (l : List α) : (rankDesc key l).Perm l := by
  induction l using List.reverseRecOn with
  | nil => exact List.Perm.refl _
  | append_singleton l x ih =>
    rw [rankDesc_concat]
    exact (insertDesc_perm x _).trans ((ih.cons x).trans (List.perm_append_singleton x l).symm)

theorem insertDesc_pairwise {x : α} {l : List α} (h : l.Pairwise fun a b => key b ≤ key a) :
    (insertDesc key x l).Pairwise fun a b => key b ≤ key a := by
  induction l with
  | nil => exact List.pairwise_singleton _ _
  | cons y ys ih =>
    obtain ⟨hy, hys⟩ := List.pairwise_cons.mp h
    rw [insertDesc]
    split
    · next hlt =>
      refine List.pairwise_cons.mpr ⟨fun z hz => ?_, h⟩
      rcases List.mem_cons.mp hz with rfl | hz
      · exact hlt.le
      · exact (hy z hz).trans hlt.le
    · next hle =>
      refine List.pairwise_cons.mpr ⟨fun z hz => ?_, ih hys⟩
      rcases List.mem_cons.mp ((insertDesc_perm x ys).mem_iff.mp hz) with rfl | hz
      · exact not_lt.mp hle
      · exact hy z hz

theorem rankDesc_pairwise (l : List α) : (rankDesc key l).Pairwise fun a b => key b ≤ key a := by
  induction l using List.reverseRecOn with
  | nil => exact List.Pairwise.nil
  | append_singleton l x ih =>
    rw [rankDesc_concat]
    exact insertDesc_pairwise ih

/-! ## Sorting without a say on ties -/

/-- A way to put lists in ascending order of a key, whatever it does with equal keys. -/
structure Sorter (key : α → κ) where
  sort : List α → List α
  perm : ∀ l, (sort l).Perm l
  sorted : ∀ l, (sort l).Pairwise fun a b => key a ≤ key b

namespace Sorter

/-- The sorter that keeps elements with equal keys in their order. -/
def stable (key : α → κ) : Sorter key where
  sort := rankDesc (OrderDual.toDual ∘ key)
  perm := rankDesc_perm
  sorted l := by
    have h : (rankDesc (OrderDual.toDual ∘ key) l).Pairwise fun a b =>
        OrderDual.toDual (key b) ≤ OrderDual.toDual (key a) := rankDesc_pairwise l
    exact h.imp OrderDual.toDual_le_toDual.mp

variable (sorter : Sorter key)

theorem mem_sort {l : List α} {x : α} : x ∈ sorter.sort l ↔ x ∈ l := (sorter.perm l).mem_iff

/-- What is cut off has no smaller key than what is kept. -/
theorem key_le_of_mem_take_of_mem_drop {n : Nat} {l : List α} {x y : α}
    (hx : x ∈ (sorter.sort l).take n) (hy : y ∈ (sorter.sort l).drop n) : key x ≤ key y := by
  have hsorted := sorter.sorted l
  rw [← List.take_append_drop n (sorter.sort l)] at hsorted
  exact (List.pairwise_append.mp hsorted).2.2 x hx y hy

end Sorter

/-! ## The first maximum -/

theorem foldl_max_le_iff {l : List κ} {a b : κ} :
    l.foldl max a ≤ b ↔ a ≤ b ∧ ∀ x ∈ l, x ≤ b := by
  induction l generalizing a with
  | nil => simp
  | cons x xs ih => rw [List.foldl_cons, ih, max_le_iff, List.forall_mem_cons, and_assoc]

/-- Searching for the maximum finds the first element that no other exceeds. -/
theorem find?_foldl_max {l : List α} {a : κ} (ha : ∀ x ∈ l, a ≤ key x) :
    l.find? (fun x => key x == (l.map key).foldl max a) =
      l.find? fun x => l.all fun y => decide (key y ≤ key x) := by
  refine List.find?_congr fun x hx => ?_
  have hle := (foldl_max_le_iff (l := l.map key) (a := a)).mp le_rfl
  rw [Bool.eq_iff_iff, beq_iff_eq, List.all_eq_true]
  constructor
  · intro heq y hy
    rw [heq]
    exact decide_eq_true (hle.2 _ (List.mem_map_of_mem hy))
  · intro hall
    refine le_antisymm (hle.2 _ (List.mem_map_of_mem hx)) (foldl_max_le_iff.mpr ⟨ha x hx, ?_⟩)
    intro k hk
    obtain ⟨y, hy, rfl⟩ := List.mem_map.mp hk
    exact of_decide_eq_true (hall y hy)

theorem exists_max_of_mem {l : List α} {x : α} (hx : x ∈ l) : ∃ y ∈ l, ∀ z ∈ l, key z ≤ key y := by
  induction l generalizing x with
  | nil => cases hx
  | cons w ws ih =>
    by_cases hnil : ws = []
    · exact ⟨w, List.mem_cons_self, by simp [hnil]⟩
    · obtain ⟨v, hv⟩ := List.exists_mem_of_ne_nil ws hnil
      obtain ⟨y, hy, hmax⟩ := ih hv
      rcases le_total (key w) (key y) with hle | hle
      · exact ⟨y, List.mem_cons_of_mem w hy, List.forall_mem_cons.mpr ⟨hle, hmax⟩⟩
      · refine ⟨w, List.mem_cons_self, List.forall_mem_cons.mpr ⟨le_rfl, ?_⟩⟩
        exact fun z hz => (hmax z hz).trans hle

/-! ## The first `n` -/

/-- Where an element lands among the first `n` depends only on the first `n`. -/
theorem take_insertDesc (x : α) : ∀ (n : Nat) (l : List α),
    (insertDesc key x l).take n = (insertDesc key x (l.take n)).take n
  | 0, l => by rw [List.take_zero, List.take_zero]
  | n + 1, [] => by rw [List.take_nil]
  | n + 1, y :: ys => by
    rw [List.take_succ_cons, insertDesc, insertDesc]
    split
    · cases n with
      | zero => rfl
      | succ m => simp [List.take_take]
    · rw [List.take_succ_cons, List.take_succ_cons, take_insertDesc x n ys]

/-- A new element changes the first `n` in a way that only the first `n` decide. -/
theorem take_rankDesc_concat (n : Nat) (l : List α) (x : α) :
    (rankDesc key (l ++ [x])).take n = (insertDesc key x ((rankDesc key l).take n)).take n := by
  rw [rankDesc_concat, take_insertDesc]

/-! ## Leaving elements out -/

theorem filter_insertDesc_of_neg {p : α → Bool} {x : α} (hx : p x = false) (l : List α) :
    (insertDesc key x l).filter p = l.filter p := by
  induction l with
  | nil => simp [insertDesc, hx]
  | cons y ys ih =>
    rw [insertDesc]
    split
    · rw [List.filter_cons_of_neg (by simp [hx])]
    · rw [List.filter_cons, List.filter_cons, ih]

/-- The first `n` elements of a list are the first `n` of what is left, if they stay. -/
theorem take_filter_of_forall_take {p : α → Bool} {n : Nat} {l : List α}
    (h : ∀ x ∈ l.take n, p x = true) : (l.filter p).take n = l.take n := by
  induction n generalizing l with
  | zero => rw [List.take_zero, List.take_zero]
  | succ n ih =>
    cases l with
    | nil => rfl
    | cons x xs =>
      rw [List.take_succ_cons] at h
      obtain ⟨hx, hxs⟩ := List.forall_mem_cons.mp h
      rw [List.filter_cons_of_pos hx, List.take_succ_cons, List.take_succ_cons, ih hxs]

/-- An element that stays is inserted at the same place among those that stay. -/
theorem filter_insertDesc {p : α → Bool} {x : α} (hx : p x = true) {l : List α}
    (hsorted : l.Pairwise fun a b => key b ≤ key a) :
    (insertDesc key x l).filter p = insertDesc key x (l.filter p) := by
  induction l with
  | nil => rw [insertDesc, List.filter_cons_of_pos hx, List.filter_nil, insertDesc]
  | cons y ys ih =>
    obtain ⟨hy, hys⟩ := List.pairwise_cons.mp hsorted
    rw [insertDesc]
    split
    · next hlt =>
      rw [List.filter_cons_of_pos hx]
      -- everything from `y` on ranks below `x`, so whatever is left of it does
      cases hrest : (y :: ys).filter p with
      | nil => rfl
      | cons z zs =>
        have hz : z ∈ y :: ys := (List.mem_filter.mp (hrest ▸ List.mem_cons_self)).1
        have hzx : key z < key x := by
          rcases List.mem_cons.mp hz with rfl | hz
          · exact hlt
          · exact (hy z hz).trans_lt hlt
        rw [insertDesc, if_pos hzx]
    · next hle =>
      cases hp : p y with
      | true =>
        rw [List.filter_cons_of_pos hp, List.filter_cons_of_pos hp, ih hys, insertDesc, if_neg hle]
      | false =>
        rw [List.filter_cons_of_neg (by simp [hp]), List.filter_cons_of_neg (by simp [hp]), ih hys]

/-- The ranking of some of the elements is what is left of the ranking of all. -/
theorem rankDesc_filter (p : α → Bool) (l : List α) :
    rankDesc key (l.filter p) = (rankDesc key l).filter p := by
  induction l using List.reverseRecOn with
  | nil => rfl
  | append_singleton l x ih =>
    rw [List.filter_append, rankDesc_concat]
    cases hp : p x with
    | true =>
      rw [List.filter_cons_of_pos hp, List.filter_nil, rankDesc_concat, ih,
        filter_insertDesc hp (rankDesc_pairwise l)]
    | false =>
      rw [List.filter_cons_of_neg (by simp [hp]), List.filter_nil, List.append_nil, ih]
      have hnew : (insertDesc key x (rankDesc key l)).filter p = (rankDesc key l).filter p :=
        filter_insertDesc_of_neg hp _
      exact hnew.symm

/-- Leaving out elements that are not among the first `n` does not change the first `n`. -/
theorem take_rankDesc_filter {p : α → Bool} {n : Nat} {l : List α}
    (h : ∀ x ∈ (rankDesc key l).take n, p x = true) :
    (rankDesc key (l.filter p)).take n = (rankDesc key l).take n := by
  rw [rankDesc_filter]
  exact take_filter_of_forall_take h

/-! ## Other keys and other elements -/

/-- Keys that compare alike rank alike. -/
theorem rankDesc_congr {ι : Type*} [LinearOrder ι] {key' : α → ι}
    (h : ∀ x y, key x < key y ↔ key' x < key' y) (l : List α) :
    rankDesc key l = rankDesc key' l := by
  have hins : ∀ (x : α) (l : List α), insertDesc key x l = insertDesc key' x l := by
    intro x l
    induction l with
    | nil => rfl
    | cons y ys ih => rw [insertDesc, insertDesc, ih]; simp only [h]
  rw [rankDesc, rankDesc]
  congr 1
  funext acc x
  exact hins x acc

/-- Inserting commutes with a map that keeps the key. -/
theorem map_insertDesc {f : α → β} {key' : β → κ} (h : ∀ x, key' (f x) = key x) (x : α)
    (l : List α) : (insertDesc key x l).map f = insertDesc key' (f x) (l.map f) := by
  induction l with
  | nil => rfl
  | cons y ys ih =>
    rw [List.map_cons, insertDesc, insertDesc, h, h, ← ih]
    split <;> rfl

end Kaede.Infra
