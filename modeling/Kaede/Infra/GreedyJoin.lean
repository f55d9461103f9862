import Mathlib.Data.List.Basic
import Mathlib.Logic.Relation
import Mathlib.Order.Lattice

/-!
# Joining neighbours greedily

Some pieces have a value. A step joins the two neighbours whose join has the highest value, the
leftmost such neighbours if there are several, until no join has a value.

* `greedy_unique` — all ways to go on until nothing can be joined end with the same pieces
* `flatten_of_greedy` — what the pieces spell
-/

namespace Kaede.Infra

open Relation

variable {α κ : Type*} [LinearOrder κ] {value : List α → Option κ}
  {pieces pieces' joined joined' : List (List α)}

/-- The best neighbours are joined. -/
def JoinsBest (value : List α → Option κ) (pieces joined : List (List α)) : Prop :=
  ∃ left a b right v, pieces = left ++ a :: b :: right ∧ joined = left ++ (a ++ b) :: right ∧
    value (a ++ b) = some v ∧
      ∀ left' c d right' w, pieces = left' ++ c :: d :: right' → value (c ++ d) = some w →
        w ≤ v ∧ (w = v → left.length ≤ left'.length)

/-- No neighbours can be joined. -/
def Stuck (value : List α → Option κ) (pieces : List (List α)) : Prop :=
  ∀ left a b right, pieces = left ++ a :: b :: right → value (a ++ b) = none

theorem JoinsBest.flatten (h : JoinsBest value pieces joined) : joined.flatten = pieces.flatten := by
  obtain ⟨left, a, b, right, v, rfl, rfl, -, -⟩ := h
  simp

theorem Stuck.not_joinsBest (hstuck : Stuck value pieces) : ¬ JoinsBest value pieces joined := by
  rintro ⟨left, a, b, right, v, heq, -, hv, -⟩
  rw [hstuck left a b right heq] at hv
  cases hv

/-- Neither of two best pairs ranks above the other, so they are the same. -/
theorem JoinsBest.unique (h : JoinsBest value pieces joined) (h' : JoinsBest value pieces joined') :
    joined = joined' := by
  obtain ⟨left, a, b, right, v, rfl, rfl, hv, hbest⟩ := h
  obtain ⟨left', a', b', right', v', heq, rfl, hv', hbest'⟩ := h'
  obtain ⟨hle, hfirst⟩ := hbest left' a' b' right' v' heq hv'
  obtain ⟨hle', hfirst'⟩ := hbest' left a b right v rfl hv
  have hvalue : v' = v := le_antisymm hle hle'
  have hlength : left.length = left'.length :=
    le_antisymm (hfirst hvalue) (hfirst' hvalue.symm)
  obtain ⟨rfl, hrest⟩ := List.append_inj heq hlength
  cases hrest
  rfl

/-! ## Until nothing can be joined -/

theorem flatten_of_greedy (h : ReflTransGen (JoinsBest value) pieces joined) :
    joined.flatten = pieces.flatten := by
  induction h with
  | refl => rfl
  | tail _ hlast ih => exact hlast.flatten.trans ih

theorem ne_nil_of_greedy (h : ReflTransGen (JoinsBest value) pieces joined)
    (hpieces : ∀ piece ∈ pieces, piece ≠ []) : ∀ piece ∈ joined, piece ≠ [] := by
  induction h with
  | refl => exact hpieces
  | tail _ hlast ih =>
    obtain ⟨left, a, b, right, v, rfl, rfl, -, -⟩ := hlast
    intro piece hpiece
    rcases List.mem_append.mp hpiece with hleft | hright
    · exact ih piece (List.mem_append_left _ hleft)
    · rcases List.mem_cons.mp hright with rfl | hright
      · exact fun hnil => ih a (by simp) (List.append_eq_nil_iff.mp hnil).1
      · exact ih piece (by simp [hright])

/-- **Where the joining ends is determined.** -/
theorem greedy_unique (h : ReflTransGen (JoinsBest value) pieces joined)
    (h' : ReflTransGen (JoinsBest value) pieces joined') (hstuck : Stuck value joined)
    (hstuck' : Stuck value joined') : joined = joined' := by
  have hunique : Relator.RightUnique (JoinsBest value) := fun _ _ _ h h' => h.unique h'
  rcases h.total_of_right_unique hunique h' with hmore | hmore
  · rcases hmore.cases_head with heq | ⟨next, hnext, -⟩
    · exact heq
    · exact absurd hnext hstuck.not_joinsBest
  · rcases hmore.cases_head with heq | ⟨next, hnext, -⟩
    · exact heq.symm
    · exact absurd hnext hstuck'.not_joinsBest

end Kaede.Infra
