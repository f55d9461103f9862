import Mathlib.Algebra.Order.Group.Nat

/-!
# Little-endian numbers in a byte buffer

A buffer is the list of the bytes between its position and its limit. Reading a number takes as many
bytes as it is wide, or throws when there are not enough.

* `leNat_leBytes`, `leBytes_leNat` — a number of `width` bytes and its bytes determine each other
* `getSigned_leBytes` — reading what was written gives the number in two's complement
* `bmod_eq_self_iff` — which is the number itself exactly when its top bit is not set
-/

namespace Kaede.Infra

/-! ## Numbers and bytes -/

/-- The lowest `width` bytes of a number, lowest first. -/
def leBytes : Nat → Nat → List UInt8
  | 0, _ => []
  | width + 1, n => UInt8.ofNat n :: leBytes width (n / 256)

def leNat : List UInt8 → Nat
  | [] => 0
  | b :: bs => b.toNat + 256 * leNat bs

@[simp] theorem length_leBytes (width n : Nat) : (leBytes width n).length = width := by
  induction width generalizing n with
  | zero => rfl
  | succ width ih => rw [leBytes, List.length_cons, ih]

theorem leNat_leBytes {width n : Nat} (h : n < 256 ^ width) : leNat (leBytes width n) = n := by
  induction width generalizing n with
  | zero => rw [pow_zero, Nat.lt_one_iff] at h; rw [h]; rfl
  | succ width ih =>
    have hdiv : n / 256 < 256 ^ width := by
      rw [Nat.div_lt_iff_lt_mul (by omega), ← pow_succ]
      exact h
    rw [leBytes, leNat, ih hdiv, UInt8.toNat_ofNat']
    omega

theorem leBytes_leNat (bs : List UInt8) : leBytes bs.length (leNat bs) = bs := by
  induction bs with
  | nil => rfl
  | cons b bs ih =>
    have hb := b.toNat_lt
    have hdiv : (b.toNat + 256 * leNat bs) / 256 = leNat bs := by omega
    have hmod : UInt8.ofNat (b.toNat + 256 * leNat bs) = b := by
      apply UInt8.toNat_inj.mp
      rw [UInt8.toNat_ofNat']
      omega
    rw [List.length_cons, leNat, leBytes, hdiv, hmod, ih]

theorem leNat_lt (bs : List UInt8) : leNat bs < 256 ^ bs.length := by
  induction bs with
  | nil => exact Nat.one_pos
  | cons b bs ih =>
    have hb := b.toNat_lt
    rw [leNat, List.length_cons, pow_succ]
    omega

/-! ## Reading -/

variable {ε : Type}

/-- Read a number of `width` bytes in two's complement. `underflow` is what is thrown when the
buffer is too short. -/
def getSigned (underflow : ε) (width : Nat) (buffer : List UInt8) :
    Except ε (Int × List UInt8) :=
  if buffer.length < width then .error underflow
  else .ok ((leNat (buffer.take width) : Int).bmod (256 ^ width), buffer.drop width)

theorem getSigned_leBytes (underflow : ε) {width n : Nat} (h : n < 256 ^ width)
    (rest : List UInt8) :
    getSigned underflow width (leBytes width n ++ rest) =
      .ok ((n : Int).bmod (256 ^ width), rest) := by
  have hlength : ¬ (leBytes width n ++ rest).length < width := by simp
  rw [getSigned, if_neg hlength, List.take_left' (length_leBytes width n),
    List.drop_left' (length_leBytes width n), leNat_leBytes h]

theorem getSigned_of_short (underflow : ε) {width : Nat} {buffer : List UInt8}
    (h : buffer.length < width) : getSigned underflow width buffer = .error underflow :=
  if_pos h

/-- In two's complement, a number is read as itself exactly when its top bit is not set. -/
theorem bmod_eq_self_iff {w n : Nat} (h : n < 2 ^ (w + 1)) :
    (n : Int).bmod (2 ^ (w + 1)) = n ↔ n < 2 ^ w := by
  rw [pow_succ] at h ⊢
  rw [Int.bmod_eq_emod]
  have hmod : (n : Int) % ((2 ^ w * 2 : Nat) : Int) = n := Int.emod_eq_of_lt (by omega) (by omega)
  rw [hmod]
  split <;> omega

/-- What is read as a natural number was written as that number. -/
theorem eq_of_bmod_eq {w n m : Nat} (h : n < 2 ^ (w + 1))
    (hm : (n : Int).bmod (2 ^ (w + 1)) = m) : n = m := by
  have hself : n < 2 ^ w → (n : Int).bmod (2 ^ (w + 1)) = n := (bmod_eq_self_iff h).mpr
  by_cases hlt : n < 2 ^ w
  · rw [hself hlt] at hm
    exact_mod_cast hm
  · rw [pow_succ] at h hm
    rw [Int.bmod_eq_emod, Int.emod_eq_of_lt (by omega) (by omega)] at hm
    split at hm <;> omega

end Kaede.Infra
