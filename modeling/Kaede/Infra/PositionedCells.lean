import Mathlib.Data.List.Basic

/-!
# Cells at positions

A memory is a list of cells, each at a position. A range of positions can be removed, and the cells
of a range can be shifted.

* `removeRange_layoutFrom`, `shiftRange_layoutFrom` — on cells at consecutive positions these are
  operations on the list of contents
* `shiftRange_removeRange_layoutFrom` — closing the gap that a removal leaves
-/

namespace Kaede.Infra

variable {α : Type*}

/-! ## The operations -/

/-- The contents at consecutive positions from `p`. -/
def layoutFrom : Nat → List α → List (Nat × α)
  | _, [] => []
  | p, x :: xs => (p, x) :: layoutFrom (p + 1) xs

/-- Remove the cells from position `p` up to `q`. -/
def removeRange (p q : Nat) (cells : List (Nat × α)) : List (Nat × α) :=
  cells.filter fun c => !decide (p ≤ c.1 ∧ c.1 < q)

/-- Where one cell goes. A cell that would leave the memory is gone. -/
def shiftCell (p q : Nat) (d : Int) (c : Nat × α) : Option (Nat × α) :=
  if p ≤ c.1 ∧ c.1 < q then
    if (c.1 : Int) + d < 0 then none else some (((c.1 : Int) + d).toNat, c.2)
  else some c

/-- Move the cells from position `p` up to `q` by `d`. -/
def shiftRange (p q : Nat) (d : Int) (cells : List (Nat × α)) : List (Nat × α) :=
  cells.filterMap (shiftCell p q d)

/-- The last position in use. -/
def lastPosition (cells : List (Nat × α)) : Option Nat := (cells.map Prod.fst).max?

variable {p q : Nat} {d : Int} {xs ys : List α} {cells more : List (Nat × α)} {c : Nat × α}

@[simp] theorem layoutFrom_nil (p : Nat) : layoutFrom p ([] : List α) = [] := rfl

@[simp] theorem length_layoutFrom (p : Nat) (xs : List α) : (layoutFrom p xs).length = xs.length := by
  induction xs generalizing p with
  | nil => rfl
  | cons x xs ih => simp [layoutFrom, ih]

theorem layoutFrom_append (p : Nat) (xs ys : List α) :
    layoutFrom p (xs ++ ys) = layoutFrom p xs ++ layoutFrom (p + xs.length) ys := by
  induction xs generalizing p with
  | nil => rfl
  | cons x xs ih =>
    have hp : p + (xs.length + 1) = p + 1 + xs.length := by omega
    simp [layoutFrom, ih, hp]

theorem mem_layoutFrom (h : c ∈ layoutFrom p xs) : p ≤ c.1 ∧ c.1 < p + xs.length := by
  induction xs generalizing p with
  | nil => simp at h
  | cons x xs ih =>
    simp only [layoutFrom, List.mem_cons] at h
    rw [List.length_cons]
    rcases h with rfl | h
    · exact ⟨Nat.le_refl p, by omega⟩
    · have := ih h
      omega

/-! ## Ranges -/

@[simp] theorem removeRange_append :
    removeRange p q (cells ++ more) = removeRange p q cells ++ removeRange p q more :=
  List.filter_append ..

@[simp] theorem shiftRange_append :
    shiftRange p q d (cells ++ more) = shiftRange p q d cells ++ shiftRange p q d more :=
  List.filterMap_append ..

/-- Cells outside the range stay. -/
theorem removeRange_of_outside (h : ∀ c ∈ cells, c.1 < p ∨ q ≤ c.1) :
    removeRange p q cells = cells := by
  unfold removeRange
  rw [List.filter_eq_self]
  intro c hc
  have := h c hc
  simp
  omega

theorem removeRange_of_inside (h : ∀ c ∈ cells, p ≤ c.1 ∧ c.1 < q) : removeRange p q cells = [] := by
  unfold removeRange
  rw [List.filter_eq_nil_iff]
  intro c hc
  have := h c hc
  simp
  omega

theorem shiftCell_of_outside (h : c.1 < p ∨ q ≤ c.1) : shiftCell p q d c = some c := by
  unfold shiftCell
  rw [if_neg (by omega)]

theorem shiftRange_of_outside (h : ∀ c ∈ cells, c.1 < p ∨ q ≤ c.1) :
    shiftRange p q d cells = cells := by
  induction cells with
  | nil => rfl
  | cons c cells ih =>
    have hcell := shiftCell_of_outside (d := d) (h c (List.mem_cons_self ..))
    unfold shiftRange at ih ⊢
    rw [List.filterMap_cons_some hcell, ih fun c' hc' => h c' (List.mem_cons_of_mem _ hc')]

/-- The cells of a range that is laid out move together. -/
theorem shiftRange_of_inside (h : q = p + xs.length) {k : Nat} (hk : k ≤ p) :
    shiftRange p q (-(k : Int)) (layoutFrom p xs) = layoutFrom (p - k) xs := by
  -- the induction moves the start of the layout, so the range is only asked to contain it
  suffices hgen : ∀ r, p ≤ r → r + xs.length ≤ q →
      shiftRange p q (-(k : Int)) (layoutFrom r xs) = layoutFrom (r - k) xs from
    hgen p (Nat.le_refl p) (by omega)
  clear h
  induction xs with
  | nil => exact fun _ _ _ => rfl
  | cons x xs ih =>
    intro r hpr hrq
    rw [List.length_cons] at hrq
    have hcell : shiftCell p q (-(k : Int)) (r, x) = some (r - k, x) := by
      have hpos : ((r : Int) + -(k : Int)).toNat = r - k := by omega
      unfold shiftCell
      simp only []
      rw [if_pos (by omega), if_neg (by omega), hpos]
    have htail := ih (r + 1) (by omega) (by omega)
    unfold shiftRange at htail ⊢
    rw [layoutFrom, List.filterMap_cons_some hcell, htail, layoutFrom]
    congr 2
    omega

theorem mem_removeRange : c ∈ removeRange p q cells ↔ c ∈ cells ∧ ¬ (p ≤ c.1 ∧ c.1 < q) := by
  simp [removeRange, imp_iff_not_or]

theorem mem_shiftRange_of_le (h : c ∈ cells) (hq : q ≤ c.1) : c ∈ shiftRange p q d cells := by
  unfold shiftRange
  rw [List.mem_filterMap]
  exact ⟨c, h, shiftCell_of_outside (Or.inr hq)⟩

/-! ## On a layout -/

/-- **Closing the gap.** Removing a stretch and moving the rest down leaves the layout of what is
kept. -/
theorem shiftRange_removeRange_layoutFrom (pre mid post : List α) :
    shiftRange (pre.length + mid.length) (pre ++ mid ++ post).length (-(mid.length : Int))
        (removeRange pre.length (pre.length + mid.length) (layoutFrom 0 (pre ++ mid ++ post))) =
      layoutFrom 0 (pre ++ post) := by
  have hpre : ∀ c ∈ layoutFrom 0 pre, c.1 < pre.length := by
    intro c hc
    have := mem_layoutFrom hc
    omega
  rw [layoutFrom_append, layoutFrom_append, removeRange_append, removeRange_append,
    removeRange_of_outside fun c hc => Or.inl (hpre c hc),
    removeRange_of_inside (fun c hc => by have := mem_layoutFrom hc; omega), List.append_nil,
    removeRange_of_outside (fun c hc => Or.inr (by
      have := mem_layoutFrom hc; rw [List.length_append] at this; omega)),
    shiftRange_append, shiftRange_of_outside (fun c hc => Or.inl (by
      have := hpre c hc; omega)), layoutFrom_append]
  congr 1
  have hlen : (pre ++ mid).length = pre.length + mid.length := List.length_append
  rw [Nat.zero_add, Nat.zero_add, hlen,
    shiftRange_of_inside (by rw [List.length_append, hlen]) (Nat.le_add_left ..),
    Nat.add_sub_cancel]

/-! ## The last position -/

@[simp] theorem lastPosition_nil : lastPosition ([] : List (Nat × α)) = none := rfl

theorem lastPosition_eq_none : lastPosition cells = none ↔ cells = [] := by
  unfold lastPosition
  rw [List.max?_eq_none_iff, List.map_eq_nil_iff]

theorem le_lastPosition {last : Nat} (h : lastPosition cells = some last) (hc : c ∈ cells) :
    c.1 ≤ last := by
  unfold lastPosition at h
  exact (List.max?_eq_some_iff.mp h).2 c.1 (List.mem_map_of_mem hc)

theorem lastPosition_layoutFrom (x : α) (xs : List α) :
    lastPosition (layoutFrom p (x :: xs)) = some (p + xs.length) := by
  unfold lastPosition
  rw [List.max?_eq_some_iff]
  refine ⟨?_, ?_⟩
  · induction xs generalizing p x with
    | nil => simp [layoutFrom]
    | cons y ys ih =>
      rw [layoutFrom, List.map_cons, List.length_cons]
      refine List.mem_cons_of_mem _ ?_
      have hp : p + (ys.length + 1) = p + 1 + ys.length := by omega
      rw [hp]
      exact ih y
  · intro b hb
    obtain ⟨c, hc, rfl⟩ := List.mem_map.mp hb
    have := mem_layoutFrom hc
    rw [List.length_cons] at this
    omega

end Kaede.Infra
