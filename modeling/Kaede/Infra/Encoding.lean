import Mathlib.Data.List.Basic

/-!
# Encodings

An encoding writes every character as one or more units. A chunk of units is whole when it is
the encoding of some characters, and then no character has been cut.

* `whole_singleton_iff` — one unit is whole when it is the code of a character
* `forall_whole_iff` — cutting a text at every unit leaves whole chunks when every unit of every
  character is the code of a character
-/

namespace Kaede.Infra

structure Encoding (χ α : Type*) where
  encode : χ → List α
  encode_ne_nil : ∀ c, encode c ≠ []

namespace Encoding

variable {χ α : Type*} (E F : Encoding χ α)

def encodeText (text : List χ) : List α := text.flatMap E.encode

/-- The chunk encodes some characters. -/
def Whole (chunk : List α) : Prop := ∃ text, E.encodeText text = chunk

theorem whole_encode (c : χ) : E.Whole (E.encode c) := ⟨[c], List.flatMap_singleton ..⟩

theorem whole_singleton_iff {u : α} : E.Whole [u] ↔ ∃ c, E.encode c = [u] := by
  constructor
  · rintro ⟨text, htext⟩
    cases text with
    | nil => cases htext
    | cons c text =>
      refine ⟨c, ?_⟩
      rw [encodeText, List.flatMap_cons] at htext
      rcases List.append_eq_singleton_iff.mp htext with ⟨hnil, -⟩ | ⟨hone, -⟩
      · exact absurd hnil (E.encode_ne_nil c)
      · exact hone
  · rintro ⟨c, hc⟩
    exact hc ▸ E.whole_encode c

/-- **Which texts can be cut at every unit.** The text is written by `E` and the chunks are read
by `F`. -/
theorem forall_whole_iff {text : List χ} :
    (∀ u ∈ E.encodeText text, F.Whole [u]) ↔
      ∀ c ∈ text, ∀ u ∈ E.encode c, ∃ d, F.encode d = [u] := by
  simp only [encodeText, List.forall_mem_flatMap, whole_singleton_iff]

/-- The chunks are whole, and together they are the text. -/
structure WholeChunks (text : List α) (chunks : List (List α)) : Prop where
  whole : ∀ chunk ∈ chunks, E.Whole chunk
  flatten : chunks.flatten = text

end Encoding

end Kaede.Infra
