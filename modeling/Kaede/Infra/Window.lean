import Mathlib.Data.List.DropRight

/-!
# A bounded window over a growing list

A buffer that drops its oldest element when it is full holds the last `n` elements of everything
that was ever pushed. What was pushed is a list of its own, read off the events.

* `rtake_concat_eq_pushBounded` — pushing into the last `n` gives the last `n`
* `sinceReset_concat` — what was pushed since the last reset, one event later
-/

namespace Kaede.Infra

variable {α : Type*}

/-- Push into a buffer of capacity `n`. -/
def pushBounded (n : Nat) (x : α) (buffer : List α) : List α :=
  (if n ≤ buffer.length then buffer.tail else buffer) ++ [x]

theorem length_rtake (n : Nat) (l : List α) : (l.rtake n).length = min n l.length := by
  rw [List.rtake, List.length_drop]
  omega

theorem rtake_of_length_le {n : Nat} {l : List α} (h : l.length ≤ n) : l.rtake n = l := by
  rw [List.rtake, Nat.sub_eq_zero_of_le h, List.drop_zero]

/-- Pushing into the last `n` gives the last `n`. -/
theorem rtake_concat_eq_pushBounded {n : Nat} (hn : 0 < n) (l : List α) (x : α) :
    (l ++ [x]).rtake n = pushBounded n x (l.rtake n) := by
  obtain ⟨m, rfl⟩ : ∃ m, n = m + 1 := ⟨n - 1, by omega⟩
  rw [List.rtake_concat_succ, pushBounded, length_rtake]
  congr 1
  by_cases h : m + 1 ≤ l.length
  · rw [if_pos (by omega), List.rtake, List.rtake, List.tail_drop]
    congr 1
    omega
  · rw [if_neg (by omega), rtake_of_length_le (by omega), rtake_of_length_le (by omega)]

theorem map_pushBounded {β : Type*} (f : α → β) (n : Nat) (x : α) (buffer : List α) :
    (pushBounded n x buffer).map f = pushBounded n (f x) (buffer.map f) := by
  rw [pushBounded, pushBounded, List.map_append, List.length_map]
  split
  · rw [List.map_tail]
    rfl
  · rfl

theorem mem_pushBounded {n : Nat} {x y : α} {buffer : List α} (h : y ∈ pushBounded n x buffer) :
    y ∈ buffer ∨ y = x := by
  rcases List.mem_append.mp h with h | h
  · split at h
    · exact Or.inl (List.mem_of_mem_tail h)
    · exact Or.inl h
  · exact Or.inr (List.mem_singleton.mp h)

theorem rtake_eq_nil_iff {n : Nat} (hn : 0 < n) {l : List α} : l.rtake n = [] ↔ l = [] := by
  rw [← List.length_eq_zero_iff, length_rtake, ← List.length_eq_zero_iff]
  omega

theorem mem_of_mem_rtake {n : Nat} {l : List α} {x : α} (h : x ∈ l.rtake n) : x ∈ l :=
  List.mem_of_mem_drop h

theorem map_rtake {β : Type*} (f : α → β) (n : Nat) (l : List α) :
    (l.rtake n).map f = (l.map f).rtake n := by
  rw [List.rtake, List.rtake, List.map_drop, List.length_map]

theorem getLast?_filter (p : α → Bool) (l : List α) :
    (l.filter p).getLast? = l.reverse.find? p := by
  rw [List.getLast?_eq_head?_reverse, ← List.filter_reverse, List.head?_filter]

/-! ## Since the last reset -/

section SinceReset

variable {ε : Type*} (pushed : ε → Option α)

/-- What the events after the last reset pushed. An event that pushes nothing is a reset. -/
def sinceReset (es : List ε) : List α :=
  (es.rtakeWhile fun e => (pushed e).isSome).filterMap pushed

@[simp] theorem sinceReset_nil : sinceReset pushed [] = [] := rfl

theorem sinceReset_concat (es : List ε) (e : ε) :
    sinceReset pushed (es ++ [e]) =
      (pushed e).elim [] fun x => sinceReset pushed es ++ [x] := by
  unfold sinceReset
  cases h : pushed e with
  | none => rw [List.rtakeWhile_concat_neg _ _ _ (by simp [h])]; rfl
  | some x =>
    rw [List.rtakeWhile_concat_pos _ _ _ (by simp [h]), List.filterMap_append]
    simp [h]

end SinceReset

end Kaede.Infra
