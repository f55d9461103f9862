import Mathlib.Data.List.Count
import Mathlib.Data.List.Induction

/-!
# Histories

Whether an entry of a history is in order may depend on the entries before it.

* `eachAfter_concat` — one more entry
* `EachAfter.count_le_one` — what must not have happened before happens at most once
-/

namespace Kaede.Infra

variable {α : Type*} {P : List α → α → Prop} {l : List α} {x : α}

/-- Every entry is in order, given the entries before it. -/
def EachAfter (P : List α → α → Prop) (l : List α) : Prop :=
  ∀ before x after, l = before ++ x :: after → P before x

theorem eachAfter_nil : EachAfter P [] := by
  intro before x after h
  simp at h

theorem eachAfter_concat : EachAfter P (l ++ [x]) ↔ EachAfter P l ∧ P l x := by
  constructor
  · intro h
    refine ⟨fun before y after heq => ?_, h l x [] rfl⟩
    exact h before y (after ++ [x]) (by rw [heq]; simp)
  · rintro ⟨h, hx⟩ before y after heq
    -- the entry is the last one, or the history without the last one goes on after it
    rcases List.eq_nil_or_concat after with rfl | ⟨rest, last, rfl⟩
    · obtain ⟨rfl, hlast⟩ := List.append_inj' heq rfl
      rw [List.singleton_inj] at hlast
      exact hlast ▸ hx
    · have hsplit : l ++ [x] = (before ++ y :: rest) ++ [last] := by
        rw [heq]
        simp
      exact h before y rest (List.append_inj' hsplit rfl).1

theorem EachAfter.count_le_one [DecidableEq α] (h : EachAfter P l)
    (hnew : ∀ before, P before x → x ∉ before) : l.count x ≤ 1 := by
  induction l using List.reverseRecOn with
  | nil => simp
  | append_singleton l y ih =>
    obtain ⟨hl, hy⟩ := eachAfter_concat.mp h
    rw [List.count_append, List.count_singleton]
    by_cases hyx : y = x
    · have hnone : l.count x = 0 := List.count_eq_zero.mpr (hnew l (hyx ▸ hy))
      simp [hnone, hyx]
    · simpa [hyx] using ih hl

end Kaede.Infra
