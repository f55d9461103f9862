import Mathlib.Data.Option.Basic

/-!
# Loops that end

A `while` loop on some local variables. The body may fail, and every iteration that does not fail
lowers a measure, so the loop ends.

* `run_spec` — an invariant whose iterations do not fail holds at the end, where the guard is false
-/

namespace Kaede.Infra

structure WhileLoop (σ : Type*) where
  guard : σ → Bool
  body : σ → Option σ
  measure : σ → Nat
  decreases : ∀ s t, guard s = true → body s = some t → measure t < measure s

namespace WhileLoop

variable {σ : Type*} (loop : WhileLoop σ)

/-- The local variables when the loop has ended, if no iteration fails. -/
def run (s : σ) : Option σ :=
  if hguard : loop.guard s = true then
    match hbody : loop.body s with
    | none => none
    | some t =>
      have := loop.decreases s t hguard hbody
      run t
  else some s
termination_by loop.measure s

theorem run_of_not_guard {s : σ} (h : loop.guard s = false) : loop.run s = some s := by
  rw [run, dif_neg (by simp [h])]

theorem run_of_body {s t : σ} (hguard : loop.guard s = true) (hbody : loop.body s = some t) :
    loop.run s = loop.run t := by
  rw [run, dif_pos hguard]
  split
  · next hnone => rw [hbody] at hnone; cases hnone
  · next u hsome =>
    rw [hbody, Option.some.injEq] at hsome
    rw [hsome]

/-- **The rule for loops.** -/
theorem run_spec {I : σ → Prop}
    (hbody : ∀ s, I s → loop.guard s = true → ∃ t, loop.body s = some t ∧ I t) {s : σ} (h : I s) :
    ∃ t, loop.run s = some t ∧ I t ∧ loop.guard t = false := by
  induction hn : loop.measure s using Nat.strongRecOn generalizing s with
  | ind n ih =>
    cases hguard : loop.guard s with
    | false => exact ⟨s, loop.run_of_not_guard hguard, h, hguard⟩
    | true =>
      obtain ⟨t, ht, hit⟩ := hbody s h hguard
      have hlt := loop.decreases s t hguard ht
      rw [loop.run_of_body hguard ht]
      exact ih (loop.measure t) (hn ▸ hlt) hit rfl

end WhileLoop

end Kaede.Infra
