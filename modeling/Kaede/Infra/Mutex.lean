import Mathlib.Data.List.Basic

/-!
# A mutex and the calls that take it

Calls are numbered by their place in a list. Each of them holds the mutex or does not, and the mutex
knows who holds it. A step of a call takes the mutex when it is free, releases it, or leaves it alone.

* `HeldBy.concat`, `HeldBy.move` — a new call and a step keep the two in line
* `HeldBy.eq_of_holds` — two calls that hold the mutex are one
-/

namespace Kaede.Infra

variable {γ : Type*} {holds : γ → Bool} {holder holder' : Option Nat} {calls calls' : List γ}
  {i j : Nat} {call call' new : γ}

/-! ## Places in the list -/

/-- A call after a new one has been made: it was there, or it is the new one. -/
theorem getElem?_concat_or (h : (calls ++ [new])[i]? = some call) :
    calls[i]? = some call ∨ (i = calls.length ∧ call = new) := by
  rcases Nat.lt_trichotomy i calls.length with hlt | heq | hgt
  · rw [List.getElem?_append_left hlt] at h
    exact Or.inl h
  · rw [heq, List.getElem?_concat_length, Option.some.injEq] at h
    exact Or.inr ⟨heq, h.symm⟩
  · rw [List.getElem?_eq_none (by simp; omega)] at h
    cases h

theorem getElem?_concat_of_some (h : calls[i]? = some call) :
    (calls ++ [new])[i]? = some call := by
  rw [List.getElem?_append_left (List.getElem?_eq_some_iff.mp h).1, h]

/-! ## The holder -/

/-- The mutex is held by the call that holds it, and by no other. -/
def HeldBy (holds : γ → Bool) (holder : Option Nat) (calls : List γ) : Prop :=
  ∀ i, holder = some i ↔ ∃ call, calls[i]? = some call ∧ holds call = true

/-- What a step of call `i` can do to the mutex. -/
inductive LockStep (holds : γ → Bool) (i : Nat) (holder : Option Nat) (call : γ)
    (holder' : Option Nat) (call' : γ) : Prop where
  | take (hfree : holder = none) (htaken : holder' = some i) (hholds : holds call' = true)
  | release (hheld : holds call = true) (hfree : holder' = none) (hnot : holds call' = false)
  | keep (hsame : holder' = holder) (hholds : holds call' = holds call)

namespace HeldBy

theorem nil : HeldBy holds none [] := by simp [HeldBy]

theorem holder_eq (h : HeldBy holds holder calls) (hcall : calls[i]? = some call)
    (hholds : holds call = true) : holder = some i := (h i).mpr ⟨call, hcall, hholds⟩

theorem eq_of_holds (h : HeldBy holds holder calls) (hi : calls[i]? = some call)
    (hholds : holds call = true) (hj : calls[j]? = some call') (hholds' : holds call' = true) :
    i = j :=
  Option.some.inj ((h.holder_eq hi hholds).symm.trans (h.holder_eq hj hholds'))

theorem concat (h : HeldBy holds holder calls) (hnew : holds new = false) :
    HeldBy holds holder (calls ++ [new]) := by
  intro i
  rw [h i]
  constructor
  · rintro ⟨call, hcall, hholds⟩
    exact ⟨call, getElem?_concat_of_some hcall, hholds⟩
  · rintro ⟨call, hcall, hholds⟩
    rcases getElem?_concat_or hcall with hold | ⟨-, rfl⟩
    · exact ⟨call, hold, hholds⟩
    · rw [hnew] at hholds
      cases hholds

/-- The call moves by a step, and the others stay where they are. -/
theorem move (h : HeldBy holds holder calls) (hcall : calls[i]? = some call)
    (hself : calls'[i]? = some call') (hothers : ∀ j, j ≠ i → calls'[j]? = calls[j]?)
    (hstep : LockStep holds i holder call holder' call') : HeldBy holds holder' calls' := by
  have hwas : ∀ j, j ≠ i → ∀ other, calls'[j]? = some other → holds other = true →
      holder = some j := by
    intro j hj other hother hholds
    rw [hothers j hj] at hother
    exact h.holder_eq hother hholds
  intro j
  cases hstep with
  | take hfree htaken hholds =>
    rw [htaken]
    constructor
    · rintro ⟨⟩
      exact ⟨call', hself, hholds⟩
    · rintro ⟨other, hother, hheld⟩
      by_cases hj : j = i
      · rw [hj]
      · -- nobody held it before
        have hholder := hwas j hj other hother hheld
        rw [hfree] at hholder
        cases hholder
  | release hheld hfree hnot =>
    rw [hfree]
    refine iff_of_false nofun ?_
    rintro ⟨other, hother, hotherHolds⟩
    by_cases hj : j = i
    · rw [hj, hself, Option.some.injEq] at hother
      rw [← hother, hnot] at hotherHolds
      cases hotherHolds
    · -- this call held it, so no other did
      have hholder := hwas j hj other hother hotherHolds
      rw [h.holder_eq hcall hheld, Option.some.injEq] at hholder
      exact hj hholder.symm
  | keep hsame hholds =>
    rw [hsame, h j]
    by_cases hj : j = i
    · rw [hj, hself, hcall]
      simp only [Option.some.injEq, exists_eq_left', hholds]
    · rw [hothers j hj]

end HeldBy

end Kaede.Infra
