import Kaede.Infra.Holdback
import Mathlib.Data.List.TakeWhile

/-!
# The UTF-8 check of the token stream (ai_chat.cpp)

`is_valid_utf8` reads a C string and looks at the high bits of its bytes only: it takes the
overlong forms, the surrogates and `F4 90` to `F7 BF`, and it stops at the first NUL.

* `isValidUtf8_resumes` — after a valid text without NUL a text is valid when the rest is
* `exists_valid_append_iff` — a text can be continued to a valid one unless it holds a byte that
  is wrong where it stands
-/

namespace Kaede.AiChat

/-- The number of bytes in the sequence that starts with `b`. -/
def sequenceLength (b : UInt8) : Option Nat :=
  if b &&& 0x80 = 0x00 then some 1
  else if b &&& 0xE0 = 0xC0 then some 2
  else if b &&& 0xF0 = 0xE0 then some 3
  else if b &&& 0xF8 = 0xF0 then some 4
  else none

/-- The loops of `is_valid_utf8`, with `missing` more bytes of the sequence to come. -/
def isValidUtf8From : Nat → List UInt8 → Bool
  | 0, [] => true
  | 0, b :: bytes =>
    if b = 0x00 then true
    else
      match sequenceLength b with
      | some num => isValidUtf8From (num - 1) bytes
      | none => false
  -- the NUL at the end of the string is no continuation byte
  | _ + 1, [] => false
  | missing + 1, b :: bytes =>
    if b &&& 0xC0 ≠ 0x80 then false else isValidUtf8From missing bytes

/-- `is_valid_utf8`. -/
def isValidUtf8 (string : List UInt8) : Bool := isValidUtf8From 0 string

/-- What a C string function sees of the bytes. -/
def cString (bytes : List UInt8) : List UInt8 := bytes.takeWhile (· ≠ 0x00)

variable {missing : Nat} {bytes a b : List UInt8}

theorem cString_of_noNul (h : ∀ x ∈ bytes, x ≠ 0x00) : cString bytes = bytes := by
  unfold cString
  rw [List.takeWhile_eq_self_iff]
  intro x hx
  simpa using h x hx

theorem isValidUtf8From_append (h : ∀ x ∈ a, x ≠ 0x00) (ha : isValidUtf8From missing a = true) :
    isValidUtf8From missing (a ++ b) = isValidUtf8 b := by
  induction a generalizing missing with
  | nil =>
    cases missing with
    | zero => rfl
    | succ missing => simp [isValidUtf8From] at ha
  | cons x a ih =>
    have hx : x ≠ 0x00 := h x (List.mem_cons_self ..)
    have hrest : ∀ y ∈ a, y ≠ 0x00 := fun y hy => h y (List.mem_cons_of_mem _ hy)
    rw [List.cons_append]
    cases missing with
    | zero =>
      simp only [isValidUtf8From, if_neg hx] at ha ⊢
      cases hlen : sequenceLength x with
      | none => simp [hlen] at ha
      | some num =>
        simp only [hlen] at ha ⊢
        exact ih hrest ha
    | succ missing =>
      simp only [isValidUtf8From] at ha ⊢
      split at ha
      · exact absurd ha Bool.false_ne_true
      · next hcont =>
        rw [if_neg hcont]
        exact ih hrest ha

/-- After a valid text a text is valid when the rest is. -/
theorem isValidUtf8_resumes : Infra.Resumes isValidUtf8 (· ≠ 0x00) where
  nil := rfl
  append _ _ h ha := isValidUtf8From_append h ha

/-! ## What can still become valid -/

/-- Every byte is right where it stands. The last sequence may lack its end. -/
def isUtf8PrefixFrom : Nat → List UInt8 → Bool
  | _, [] => true
  | 0, b :: bytes =>
    match sequenceLength b with
    | some num => isUtf8PrefixFrom (num - 1) bytes
    | none => false
  | missing + 1, b :: bytes =>
    if b &&& 0xC0 ≠ 0x80 then false else isUtf8PrefixFrom missing bytes

/-- No byte is wrong where it stands. -/
def isUtf8Prefix (bytes : List UInt8) : Bool := isUtf8PrefixFrom 0 bytes

theorem isUtf8PrefixFrom_of_valid_append (h : ∀ x ∈ a, x ≠ 0x00)
    (ha : isValidUtf8From missing (a ++ b) = true) : isUtf8PrefixFrom missing a = true := by
  induction a generalizing missing with
  | nil => simp [isUtf8PrefixFrom]
  | cons x a ih =>
    have hx : x ≠ 0x00 := h x (List.mem_cons_self ..)
    have hrest : ∀ y ∈ a, y ≠ 0x00 := fun y hy => h y (List.mem_cons_of_mem _ hy)
    rw [List.cons_append] at ha
    cases missing with
    | zero =>
      simp only [isValidUtf8From, isUtf8PrefixFrom, if_neg hx] at ha ⊢
      cases hlen : sequenceLength x with
      | none => simp [hlen] at ha
      | some num =>
        simp only [hlen] at ha ⊢
        exact ih hrest ha
    | succ missing =>
      simp only [isValidUtf8From, isUtf8PrefixFrom] at ha ⊢
      split at ha
      · exact absurd ha Bool.false_ne_true
      · next hcont =>
        rw [if_neg hcont]
        exact ih hrest ha

/-- Missing continuation bytes can be supplied. -/
theorem isValidUtf8From_replicate (missing : Nat) :
    isValidUtf8From missing (List.replicate missing 0x80) = true := by
  induction missing with
  | zero => rfl
  | succ missing ih =>
    rw [List.replicate_succ]
    show isValidUtf8From missing (List.replicate missing 0x80) = true
    exact ih

theorem exists_valid_of_isUtf8PrefixFrom (ha : isUtf8PrefixFrom missing a = true) :
    ∃ b, (∀ x ∈ b, x ≠ 0x00) ∧ isValidUtf8From missing (a ++ b) = true := by
  induction a generalizing missing with
  | nil =>
    refine ⟨List.replicate missing 0x80, ?_, isValidUtf8From_replicate missing⟩
    intro x hx
    rw [List.eq_of_mem_replicate hx]
    simp
  | cons x a ih =>
    cases missing with
    | zero =>
      simp only [isUtf8PrefixFrom] at ha
      cases hlen : sequenceLength x with
      | none => simp [hlen] at ha
      | some num =>
        simp only [hlen] at ha
        obtain ⟨b, hb, hvalid⟩ := ih ha
        refine ⟨b, hb, ?_⟩
        simp only [List.cons_append, isValidUtf8From, hlen]
        split
        · rfl
        · exact hvalid
    | succ missing =>
      simp only [isUtf8PrefixFrom] at ha
      split at ha
      · exact absurd ha Bool.false_ne_true
      · next hcont =>
        obtain ⟨b, hb, hvalid⟩ := ih ha
        refine ⟨b, hb, ?_⟩
        simp only [List.cons_append, isValidUtf8From]
        rw [if_neg hcont]
        exact hvalid

/-- A text can become valid exactly when none of its bytes is wrong where it stands. -/
theorem exists_valid_append_iff (h : ∀ x ∈ a, x ≠ 0x00) :
    (∃ b, (∀ x ∈ b, x ≠ 0x00) ∧ isValidUtf8 (a ++ b) = true) ↔ isUtf8Prefix a = true := by
  constructor
  · rintro ⟨b, -, hb⟩
    exact isUtf8PrefixFrom_of_valid_append h hb
  · exact exists_valid_of_isUtf8PrefixFrom

end Kaede.AiChat
