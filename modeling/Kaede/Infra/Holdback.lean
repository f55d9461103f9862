import Mathlib.Data.List.Basic
import Mathlib.Data.List.Induction

/-!
# Holding pieces back until they are complete

Pieces of a text arrive one by one. What has arrived is held back until it is complete, and then
handed out as a whole.

* `handedOut_flatten_append` — nothing is lost, and the order is kept
* `handedOut_spec` — what has been handed out are the pieces up to the last place where all of them
  together were complete
* `handedOut_of_stuck` — once no continuation is complete, nothing is handed out any more
-/

namespace Kaede.Infra

variable {α : Type*}

/-! ## The procedure -/

/-- A piece arrives: what is handed out, and what is held back. -/
def push (complete : List α → Bool) (held piece : List α) : List α × List α :=
  if complete (held ++ piece) then (held ++ piece, []) else ([], held ++ piece)

/-- What is handed out at each piece. -/
def handedOut (complete : List α → Bool) : List α → List (List α) → List (List α)
  | _, [] => []
  | held, piece :: pieces =>
    (push complete held piece).1 :: handedOut complete (push complete held piece).2 pieces

/-- What is held back after the pieces. -/
def heldBack (complete : List α → Bool) : List α → List (List α) → List α
  | held, [] => held
  | held, piece :: pieces => heldBack complete (push complete held piece).2 pieces

variable {complete : List α → Bool} {held : List α}

@[simp] theorem handedOut_nil : handedOut complete held [] = [] := rfl

@[simp] theorem heldBack_nil : heldBack complete held [] = held := rfl

@[simp] theorem length_handedOut (pieces : List (List α)) :
    (handedOut complete held pieces).length = pieces.length := by
  induction pieces generalizing held with
  | nil => rfl
  | cons piece pieces ih => simp [handedOut, ih]

theorem handedOut_append (pieces more : List (List α)) :
    handedOut complete held (pieces ++ more) =
      handedOut complete held pieces ++ handedOut complete (heldBack complete held pieces) more := by
  induction pieces generalizing held with
  | nil => rfl
  | cons piece pieces ih => simp [handedOut, heldBack, ih]

/-- What is handed out at the first pieces depends on them only. -/
theorem take_handedOut (pieces : List (List α)) (i : Nat) :
    (handedOut complete held pieces).take i = handedOut complete held (pieces.take i) := by
  rcases Nat.lt_or_ge pieces.length i with hlt | hle
  · rw [List.take_of_length_le (Nat.le_of_lt hlt),
      List.take_of_length_le (by rw [length_handedOut]; omega)]
  · conv_lhs => rw [← List.take_append_drop i pieces, handedOut_append]
    rw [List.take_append_of_le_length (by rw [length_handedOut, List.length_take]; omega),
      List.take_of_length_le (by rw [length_handedOut, List.length_take]; omega)]

theorem heldBack_append (pieces more : List (List α)) :
    heldBack complete held (pieces ++ more) =
      heldBack complete (heldBack complete held pieces) more := by
  induction pieces generalizing held with
  | nil => rfl
  | cons piece pieces ih => simp [heldBack, ih]

theorem push_append (held piece : List α) :
    (push complete held piece).1 ++ (push complete held piece).2 = held ++ piece := by
  unfold push
  split <;> simp

/-- **Nothing is lost, and the order is kept.** -/
theorem handedOut_flatten_append (complete : List α → Bool) (held : List α)
    (pieces : List (List α)) :
    (handedOut complete held pieces).flatten ++ heldBack complete held pieces =
      held ++ pieces.flatten := by
  induction pieces generalizing held with
  | nil => simp
  | cons piece pieces ih =>
    simp only [handedOut, heldBack, List.flatten_cons, List.append_assoc, ih]
    rw [← List.append_assoc, push_append, List.append_assoc]

/-! ## When completeness of the whole is completeness of the rest -/

/-- After complete text, a text is complete when what follows is. Only texts made of `ok` elements
count. -/
structure Resumes (complete : List α → Bool) (ok : α → Prop) : Prop where
  nil : complete [] = true
  append : ∀ a b, (∀ x ∈ a, ok x) → complete a = true → complete (a ++ b) = complete b

variable {ok : α → Prop} {pieces : List (List α)}

theorem ok_of_append {a b : List α} (h : ∀ x ∈ a ++ b, ok x) : (∀ x ∈ a, ok x) ∧ ∀ x ∈ b, ok x :=
  ⟨fun x hx => h x (List.mem_append_left b hx), fun x hx => h x (List.mem_append_right a hx)⟩

/-- What is held back is complete exactly when all there was is. -/
theorem complete_heldBack (hc : Resumes complete ok) (hok : ∀ x ∈ pieces.flatten, ok x) :
    complete (heldBack complete [] pieces) = complete pieces.flatten ∧
      complete (handedOut complete [] pieces).flatten = true := by
  induction pieces using List.reverseRecOn with
  | nil => exact ⟨rfl, hc.nil⟩
  | append_singleton pieces piece ih =>
    rw [List.flatten_append] at hok
    obtain ⟨hpieces, -⟩ := ok_of_append hok
    obtain ⟨hheld, hout⟩ := ih hpieces
    have hsplit := handedOut_flatten_append complete [] pieces
    rw [List.nil_append] at hsplit
    have hokout : ∀ x ∈ (handedOut complete [] pieces).flatten, ok x := by
      intro x hx
      apply hpieces
      rw [← hsplit]
      exact List.mem_append_left _ hx
    have hnext : complete (pieces ++ [piece]).flatten =
        complete (heldBack complete [] pieces ++ piece) := by
      rw [List.flatten_append, List.flatten_singleton, ← hsplit, List.append_assoc,
        hc.append _ _ hokout hout]
    rw [handedOut_append, heldBack_append, hnext]
    simp only [heldBack, handedOut, List.flatten_append, List.flatten_singleton]
    unfold push
    split
    · next hcomplete =>
      refine ⟨by rw [hc.nil, hcomplete], ?_⟩
      rw [hc.append _ _ hokout hout]
      exact hcomplete
    · refine ⟨rfl, ?_⟩
      rw [List.append_nil]
      exact hout

/-- Nothing is held back exactly when all there was is complete. -/
theorem heldBack_eq_nil_iff (hc : Resumes complete ok) (hok : ∀ x ∈ pieces.flatten, ok x) :
    heldBack complete [] pieces = [] ↔ complete pieces.flatten = true := by
  rw [← (complete_heldBack hc hok).1]
  constructor
  · intro h
    rw [h]
    exact hc.nil
  · induction pieces using List.reverseRecOn with
    | nil => exact fun _ => rfl
    | append_singleton pieces piece =>
      rw [heldBack_append]
      simp only [heldBack, push]
      split
      · exact fun _ => rfl
      · next hnot => exact fun h => absurd h hnot

/-- **What has been handed out.** The pieces up to the last place where they were complete. -/
theorem handedOut_spec (hc : Resumes complete ok) (hok : ∀ x ∈ pieces.flatten, ok x) :
    ∃ j ≤ pieces.length, complete (pieces.take j).flatten = true ∧
      (∀ k, j < k → k ≤ pieces.length → complete (pieces.take k).flatten = false) ∧
      (handedOut complete [] pieces).flatten = (pieces.take j).flatten ∧
      heldBack complete [] pieces = (pieces.drop j).flatten := by
  induction pieces using List.reverseRecOn with
  | nil =>
    refine ⟨0, Nat.le_refl 0, hc.nil, ?_, rfl, rfl⟩
    intro k hk hle
    exact absurd (Nat.lt_of_lt_of_le hk hle) (Nat.lt_irrefl 0)
  | append_singleton pieces piece ih =>
    have hokpieces := (ok_of_append (List.flatten_append ▸ hok)).1
    by_cases hwhole : complete (pieces ++ [piece]).flatten = true
    · have hheld := (heldBack_eq_nil_iff hc hok).mpr hwhole
      have hsplit := handedOut_flatten_append complete [] (pieces ++ [piece])
      rw [hheld, List.append_nil, List.nil_append] at hsplit
      refine ⟨(pieces ++ [piece]).length, Nat.le_refl _, ?_, ?_, ?_, ?_⟩
      · rw [List.take_length]
        exact hwhole
      · intro k hk hle
        exact absurd (Nat.lt_of_lt_of_le hk hle) (Nat.lt_irrefl _)
      · rw [List.take_length]
        exact hsplit
      · rw [List.drop_length]
        exact hheld
    · obtain ⟨j, hj, hcomplete, hlast, hout, hheld⟩ := ih hokpieces
      rw [Bool.not_eq_true] at hwhole
      have hpush : push complete (heldBack complete [] pieces) piece =
          ([], heldBack complete [] pieces ++ piece) := by
        have hne : heldBack complete [] (pieces ++ [piece]) ≠ [] := by
          rw [Ne, heldBack_eq_nil_iff hc hok, hwhole]
          exact Bool.false_ne_true
        rw [heldBack_append] at hne
        simp only [heldBack] at hne
        unfold push at hne ⊢
        split at hne
        · exact absurd rfl hne
        · next hnot => rw [if_neg hnot]
      refine ⟨j, by rw [List.length_append]; omega, ?_, ?_, ?_, ?_⟩
      · rw [List.take_append_of_le_length hj]
        exact hcomplete
      · intro k hk hle
        by_cases hkp : k ≤ pieces.length
        · rw [List.take_append_of_le_length hkp]
          exact hlast k hk hkp
        · rw [List.take_of_length_le (by rw [List.length_append] at hle ⊢; simp at hle ⊢; omega)]
          exact hwhole
      · rw [handedOut_append, List.flatten_append, List.take_append_of_le_length hj, hout]
        simp [handedOut, hpush]
      · rw [heldBack_append, List.drop_append_of_le_length hj, List.flatten_append]
        show (push complete (heldBack complete [] pieces) piece).2 = _
        rw [hpush, hheld]
        simp

/-- **Stuck.** Once no continuation of the pieces is complete, nothing is handed out any more. -/
theorem handedOut_of_stuck (hc : Resumes complete ok) {more : List (List α)}
    (hok : ∀ x ∈ (pieces ++ more).flatten, ok x)
    (hstuck : ∀ b, (∀ x ∈ b, ok x) → complete (pieces.flatten ++ b) = false) :
    (handedOut complete [] (pieces ++ more)).flatten = (handedOut complete [] pieces).flatten := by
  obtain ⟨j, hj, hcomplete, hlast, hout, -⟩ := handedOut_spec hc hok
  obtain ⟨i, hi, hicomplete, hilast, hiout, -⟩ :=
    handedOut_spec hc (ok_of_append (List.flatten_append ▸ hok)).1
  have hjle : j ≤ pieces.length := by
    by_contra hgt
    rw [List.take_append, List.take_of_length_le (by omega), List.flatten_append, hstuck]
      at hcomplete
    · exact Bool.false_ne_true hcomplete
    · intro x hx
      obtain ⟨piece, hpiece, hxp⟩ := List.mem_flatten.mp hx
      apply hok
      rw [List.flatten_append]
      exact List.mem_append_right _ (List.mem_flatten.mpr ⟨piece, List.mem_of_mem_take hpiece, hxp⟩)
  rw [List.take_append_of_le_length hjle] at hcomplete hout
  have hij : i = j := by
    rcases Nat.lt_trichotomy i j with hlt | heq | hgt
    · rw [hilast j hlt hjle] at hcomplete
      exact absurd hcomplete Bool.false_ne_true
    · exact heq
    · have hfalse := hlast i hgt (by rw [List.length_append]; omega)
      rw [List.take_append_of_le_length hi, hicomplete] at hfalse
      exact absurd hfalse.symm Bool.false_ne_true
  rw [hout, hiout, hij]

end Kaede.Infra
