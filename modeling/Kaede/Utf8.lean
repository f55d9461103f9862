import Kaede.Unicode

/-!
# UTF-8

`String(bytes, Charsets.UTF_8)`. A byte that cannot follow ends the sequence that is open, which
becomes one U+FFFD, and is then looked at as a first byte.

* `decodeUtf8_encodeUtf8` — a text that was written in UTF-8 is read back
-/

namespace Kaede

/-! ## Reading -/

/-- A sequence that is being read: how many bytes it still needs, the bounds of the next one, and
the bits so far. Between two sequences `needed` is `0`. -/
structure Utf8Sequence where
  needed : Nat
  lower : Nat
  upper : Nat
  codePoint : Nat
deriving DecidableEq, Repr

def Utf8Sequence.idle : Utf8Sequence := { needed := 0, lower := 0x80, upper := 0xBF, codePoint := 0 }

def replacementChar : CodeUnit := 0xFFFD

/-- The first byte of a sequence. -/
def utf8First (b : Nat) : Text × Utf8Sequence :=
  if b ≤ 0x7F then (unitsOf b, .idle)
  else if 0xC2 ≤ b ∧ b ≤ 0xDF then
    ([], { needed := 1, lower := 0x80, upper := 0xBF, codePoint := b - 0xC0 })
  else if 0xE0 ≤ b ∧ b ≤ 0xEF then
    ([], { needed := 2, lower := if b = 0xE0 then 0xA0 else 0x80,
           upper := if b = 0xED then 0x9F else 0xBF, codePoint := b - 0xE0 })
  else if 0xF0 ≤ b ∧ b ≤ 0xF4 then
    ([], { needed := 3, lower := if b = 0xF0 then 0x90 else 0x80,
           upper := if b = 0xF4 then 0x8F else 0xBF, codePoint := b - 0xF0 })
  else ([replacementChar], .idle)

def utf8Next (sequence : Utf8Sequence) (b : Nat) : Text × Utf8Sequence :=
  if sequence.needed = 0 then utf8First b
  else if sequence.lower ≤ b ∧ b ≤ sequence.upper then
    let codePoint := sequence.codePoint * 64 + (b - 0x80)
    if sequence.needed = 1 then (unitsOf codePoint, .idle)
    else
      ([], { needed := sequence.needed - 1, lower := 0x80, upper := 0xBF, codePoint := codePoint })
  else (replacementChar :: (utf8First b).1, (utf8First b).2)

def decodeUtf8From : Utf8Sequence → List UInt8 → Text
  | sequence, [] => if sequence.needed = 0 then [] else [replacementChar]
  | sequence, b :: bytes =>
    (utf8Next sequence b.toNat).1 ++ decodeUtf8From (utf8Next sequence b.toNat).2 bytes

/-- `String(bytes, Charsets.UTF_8)`. -/
def decodeUtf8 (bytes : List UInt8) : Text := decodeUtf8From .idle bytes

/-- A text without lone surrogates, in UTF-8. -/
def encodeUtf8 (s : String) : List UInt8 := s.toList.flatMap String.utf8EncodeChar

/-! ## Reading what was written -/

section

variable {b n lower upper codePoint : Nat} {bytes : List UInt8}

/-- A byte between the bounds that is not the last one. -/
theorem decodeUtf8From_next (hb : b < 256) (hlower : lower ≤ b) (hupper : b ≤ upper) :
    decodeUtf8From { needed := n + 2, lower, upper, codePoint } (UInt8.ofNat b :: bytes) =
      decodeUtf8From { needed := n + 1, lower := 0x80, upper := 0xBF,
                       codePoint := codePoint * 64 + (b - 0x80) } bytes := by
  have htoNat : (UInt8.ofNat b).toNat = b := by
    rw [UInt8.toNat_ofNat']
    omega
  have hnext : utf8Next { needed := n + 2, lower, upper, codePoint } b =
      ([], { needed := n + 1, lower := 0x80, upper := 0xBF,
             codePoint := codePoint * 64 + (b - 0x80) }) := by
    simp [utf8Next, hlower, hupper]
  rw [decodeUtf8From, htoNat, hnext]
  rfl

/-- The last byte. -/
theorem decodeUtf8From_last (hb : b < 256) (hlower : lower ≤ b) (hupper : b ≤ upper) :
    decodeUtf8From { needed := 1, lower, upper, codePoint } (UInt8.ofNat b :: bytes) =
      unitsOf (codePoint * 64 + (b - 0x80)) ++ decodeUtf8 bytes := by
  have htoNat : (UInt8.ofNat b).toNat = b := by
    rw [UInt8.toNat_ofNat']
    omega
  have hnext : utf8Next { needed := 1, lower, upper, codePoint } b =
      (unitsOf (codePoint * 64 + (b - 0x80)), .idle) := by
    simp [utf8Next, hlower, hupper]
  rw [decodeUtf8From, htoNat, hnext, decodeUtf8]

/-- The first byte of a sequence of several. -/
theorem decodeUtf8_first (hb : b < 256) {sequence : Utf8Sequence}
    (hfirst : utf8First b = ([], sequence)) :
    decodeUtf8 (UInt8.ofNat b :: bytes) = decodeUtf8From sequence bytes := by
  have htoNat : (UInt8.ofNat b).toNat = b := by
    rw [UInt8.toNat_ofNat']
    omega
  have hnext : utf8Next .idle b = ([], sequence) := hfirst
  rw [decodeUtf8, decodeUtf8From, htoNat, hnext]
  rfl

end

/-- One character at a time, in the four lengths that a sequence can have. -/
theorem decodeUtf8_utf8EncodeChar (c : Char) (bytes : List UInt8) :
    decodeUtf8 (String.utf8EncodeChar c ++ bytes) = unitsOf c.toNat ++ decodeUtf8 bytes := by
  obtain ⟨v, hv⟩ : ∃ v, c.toNat = v := ⟨_, rfl⟩
  have hvalid : v < 0xD800 ∨ 0xDFFF < v ∧ v < 0x110000 := by
    have h := c.valid
    rw [← hv]
    exact h
  have hval : c.val.toNat = v := hv
  rw [hv]
  simp only [String.utf8EncodeChar, hval]
  split
  · next h1 =>
    have htoNat : (UInt8.ofNat v).toNat = v := by
      rw [UInt8.toNat_ofNat']
      omega
    have hnext : utf8Next .idle v = (unitsOf v, .idle) := by
      show utf8First v = _
      rw [utf8First, if_pos h1]
    rw [List.singleton_append, decodeUtf8, decodeUtf8From, htoNat, hnext, decodeUtf8]
  · split
    · next h1 h2 =>
      have hfirst : utf8First (v / 64 % 0x20 + 0xC0) =
          ([], { needed := 1, lower := 0x80, upper := 0xBF, codePoint := v / 64 }) := by
        rw [utf8First, if_neg (by omega), if_pos (by omega)]
        simp only [Prod.mk.injEq, Utf8Sequence.mk.injEq, true_and]
        omega
      have hbits : v / 64 * 64 + (v % 0x40 + 0x80 - 0x80) = v := by omega
      rw [List.cons_append, List.cons_append, List.nil_append,
        decodeUtf8_first (by omega) hfirst, decodeUtf8From_last (by omega) (by omega) (by omega),
        hbits]
    · split
      · next h1 h2 h3 =>
        have hfirst : utf8First (v / 4096 % 0x10 + 0xE0) =
            ([], { needed := 2, lower := if v / 4096 = 0 then 0xA0 else 0x80,
                   upper := if v / 4096 = 13 then 0x9F else 0xBF, codePoint := v / 4096 }) := by
          rw [utf8First, if_neg (by omega), if_neg (by omega), if_pos (by omega)]
          simp only [Prod.mk.injEq, Utf8Sequence.mk.injEq, true_and]
          refine ⟨?_, ?_, ?_⟩
          · split <;> split <;> omega
          · split <;> split <;> omega
          · omega
        have hbits : (v / 4096 * 64 + (v / 64 % 0x40 + 0x80 - 0x80)) * 64 +
            (v % 0x40 + 0x80 - 0x80) = v := by omega
        rw [List.cons_append, List.cons_append, List.cons_append, List.nil_append,
          decodeUtf8_first (by omega) hfirst, decodeUtf8From_next (by omega)
            (by split <;> omega) (by split <;> omega),
          decodeUtf8From_last (by omega) (by omega) (by omega), hbits]
      · next h1 h2 h3 =>
        have hfirst : utf8First (v / 262144 % 0x08 + 0xF0) =
            ([], { needed := 3, lower := if v / 262144 = 0 then 0x90 else 0x80,
                   upper := if v / 262144 = 4 then 0x8F else 0xBF, codePoint := v / 262144 }) := by
          rw [utf8First, if_neg (by omega), if_neg (by omega), if_neg (by omega),
            if_pos (by omega)]
          simp only [Prod.mk.injEq, Utf8Sequence.mk.injEq, true_and]
          refine ⟨?_, ?_, ?_⟩
          · split <;> split <;> omega
          · split <;> split <;> omega
          · omega
        have hbits : ((v / 262144 * 64 + (v / 4096 % 0x40 + 0x80 - 0x80)) * 64 +
            (v / 64 % 0x40 + 0x80 - 0x80)) * 64 + (v % 0x40 + 0x80 - 0x80) = v := by omega
        rw [List.cons_append, List.cons_append, List.cons_append, List.cons_append,
          List.nil_append, decodeUtf8_first (by omega) hfirst, decodeUtf8From_next (by omega)
            (by split <;> omega) (by split <;> omega),
          decodeUtf8From_next (by omega) (by omega) (by omega),
          decodeUtf8From_last (by omega) (by omega) (by omega), hbits]

/-- **A text that was written in UTF-8 is read back.** -/
theorem decodeUtf8_encodeUtf8 (s : String) : decodeUtf8 (encodeUtf8 s) = utf16 s := by
  rw [encodeUtf8, utf16]
  induction s.toList with
  | nil => rfl
  | cons c cs ih =>
    have hunits : unitsOf c.toNat = utf16Char c := rfl
    rw [List.flatMap_cons, List.flatMap_cons, decodeUtf8_utf8EncodeChar, ih, hunits]

end Kaede
