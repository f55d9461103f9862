import Kaede.Infra.Ranking

/-!
# Priority queues

A `PriorityQueue less` keeps its elements in a list, its storage, and lays the storage out as it
likes. An element that is popped has none above it; which one of several is popped is not said.
-/

namespace Kaede.Infra

structure PriorityQueue {α : Type*} (less : α → α → Bool) where
  push : List α → α → List α
  pop : List α → Option (α × List α)
  push_perm : ∀ storage x, (push storage x).Perm (x :: storage)
  pop_isSome : ∀ storage, storage ≠ [] → (pop storage).isSome = true
  pop_perm : ∀ storage x rest, pop storage = some (x, rest) → storage.Perm (x :: rest)
  pop_top : ∀ storage x rest, pop storage = some (x, rest) → ∀ y ∈ rest, less x y = false

namespace PriorityQueue

variable {α κ : Type*} {less : α → α → Bool} (queue : PriorityQueue less)
  {storage rest : List α} {x y : α}

theorem mem_push : y ∈ queue.push storage x ↔ y = x ∨ y ∈ storage := by
  rw [(queue.push_perm storage x).mem_iff, List.mem_cons]

theorem length_push : (queue.push storage x).length = storage.length + 1 :=
  (queue.push_perm storage x).length_eq

theorem length_pop (h : queue.pop storage = some (x, rest)) :
    storage.length = rest.length + 1 :=
  (queue.pop_perm storage x rest h).length_eq

theorem mem_of_pop (h : queue.pop storage = some (x, rest)) : y ∈ storage ↔ y = x ∨ y ∈ rest := by
  rw [(queue.pop_perm storage x rest h).mem_iff, List.mem_cons]

/-- What was in the storage does not rank above what is popped. -/
theorem not_less_of_pop (h : queue.pop storage = some (x, rest)) (hirrefl : less x x = false)
    (hy : y ∈ storage) : less x y = false := by
  rcases (queue.mem_of_pop h).mp hy with rfl | hy
  · exact hirrefl
  · exact queue.pop_top storage x rest h y hy

/-! ## A queue for every key -/

variable [LinearOrder κ]

/-- Pop the first of those with the highest key. -/
def ofKey (key : α → κ) (hless : ∀ a b, less a b = true ↔ key a < key b) : PriorityQueue less where
  push storage x := x :: storage
  pop storage := (rankDesc key storage).head?.map fun x => (x, (rankDesc key storage).tail)
  push_perm storage x := List.Perm.refl _
  pop_isSome storage h := by
    rw [Option.isSome_map, List.isSome_head?]
    intro hnil
    have hperm : (rankDesc key storage).Perm storage := rankDesc_perm storage
    rw [hnil] at hperm
    exact h hperm.symm.eq_nil
  pop_perm storage x rest h := by
    obtain ⟨y, hy, heq⟩ := Option.map_eq_some_iff.mp h
    cases heq
    have hperm : (rankDesc key storage).Perm storage := rankDesc_perm storage
    rw [List.cons_head?_tail hy]
    exact hperm.symm
  pop_top storage x rest h y hy := by
    obtain ⟨z, hz, heq⟩ := Option.map_eq_some_iff.mp h
    cases heq
    have hsorted : (rankDesc key storage).Pairwise fun a b => key b ≤ key a :=
      rankDesc_pairwise storage
    rw [← List.cons_head?_tail hz] at hsorted
    exact Bool.eq_false_iff.mpr fun hlt =>
      ((List.pairwise_cons.mp hsorted).1 y hy).not_gt ((hless x y).mp hlt)

end PriorityQueue

end Kaede.Infra
