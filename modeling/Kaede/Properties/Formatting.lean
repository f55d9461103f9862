import Kaede.Ui.TextFormatter
import Mathlib.Data.List.TakeDrop

/-!
# `formatText` only removes the delimiters it styled

* `Piece` — a literal, or a text between two delimiters
* `Scanned` — what has been scanned is the source of some pieces, and the builder shows them
* `formatText_pieces` — the whole text is the source of some pieces, and the result shows them
-/

namespace Kaede

open Infra

namespace TextFormatter

/-! ## Pieces -/

inductive Piece where
  | literal (text : Text)
  | styled (style : SpanStyle) (inner : Text)
deriving DecidableEq, Repr

namespace Piece

/-- The piece as it stands in the input. -/
def source : Piece → Text
  | literal text => text
  | styled style inner => style.delimiter ++ inner ++ style.delimiter

/-- The piece as it stands in the result. -/
def plain : Piece → Text
  | literal text => text
  | styled _ inner => inner

/-- The ranges of the styled parts, for pieces whose plain text starts at `offset`. -/
def spansFrom : Nat → List Piece → List StyleRange
  | _, [] => []
  | offset, literal text :: pieces => spansFrom (offset + text.length) pieces
  | offset, styled style inner :: pieces =>
    ⟨style, offset, offset + inner.length⟩ :: spansFrom (offset + inner.length) pieces

theorem spansFrom_append (offset : Nat) (ps qs : List Piece) :
    spansFrom offset (ps ++ qs) =
      spansFrom offset ps ++ spansFrom (offset + (ps.flatMap plain).length) qs := by
  induction ps generalizing offset with
  | nil => rfl
  | cons p ps ih =>
    cases p with
    | literal text =>
      rw [List.cons_append, spansFrom, spansFrom, ih, List.flatMap_cons, List.length_append,
        Nat.add_assoc]
      rfl
    | styled style inner =>
      rw [List.cons_append, spansFrom, spansFrom, ih, List.flatMap_cons, List.length_append,
        List.cons_append, Nat.add_assoc]
      rfl

/-- The ranges lie between the offset and the end, and each is as long as its part. -/
theorem spansFrom_bounds {offset : Nat} {ps : List Piece} {r : StyleRange}
    (h : r ∈ spansFrom offset ps) :
    offset ≤ r.start ∧ r.start ≤ r.stop ∧ r.stop ≤ offset + (ps.flatMap plain).length := by
  induction ps generalizing offset with
  | nil => cases h
  | cons p ps ih =>
    cases p with
    | literal text =>
      have hrest := @ih (offset + text.length) h
      rw [List.flatMap_cons, List.length_append]
      simp only [plain]
      omega
    | styled style inner =>
      rw [List.flatMap_cons, List.length_append]
      simp only [plain]
      rcases List.mem_cons.mp h with rfl | h
      · dsimp only
        omega
      · have hrest := @ih (offset + inner.length) h
        omega

/-- The ranges are disjoint and in order. -/
theorem spansFrom_pairwise (offset : Nat) (ps : List Piece) :
    (spansFrom offset ps).Pairwise fun a b => a.stop ≤ b.start := by
  induction ps generalizing offset with
  | nil => exact List.Pairwise.nil
  | cons p ps ih =>
    cases p with
    | literal text => exact ih _
    | styled style inner => exact List.pairwise_cons.mpr ⟨fun r hr => (spansFrom_bounds hr).1, ih _⟩

end Piece

/-- The annotated string that shows the pieces. -/
def render (pieces : List Piece) : AnnotatedString :=
  { text := pieces.flatMap Piece.plain, spanStyles := Piece.spansFrom 0 pieces }

theorem render_literal (pieces : List Piece) (text : Text) :
    render (pieces ++ [.literal text]) = (render pieces).append text := by
  simp [render, AnnotatedString.append, Piece.spansFrom_append, Piece.spansFrom, Piece.plain]

theorem render_styled (pieces : List Piece) (style : SpanStyle) (inner : Text) :
    render (pieces ++ [.styled style inner]) = (render pieces).appendStyled style inner := by
  simp [render, AnnotatedString.appendStyled, AnnotatedString.append, Piece.spansFrom_append,
    Piece.spansFrom, Piece.plain]

/-! ## Parts of the text -/

theorem substring_eq {text : Text} {i j : Nat} (hij : i ≤ j) (hj : j ≤ text.length) :
    substring text i j = some ((text.take j).drop i) := by
  rw [substring, if_pos ⟨hij, hj⟩]

theorem take_append_between (text : Text) {i j : Nat} (hij : i ≤ j) :
    text.take i ++ (text.take j).drop i = text.take j := by
  have h := List.take_append_drop i (text.take j)
  rwa [List.take_take, Nat.min_eq_left hij] at h

theorem take_append_word {text word : Text} {i : Nat} (h : word <+: text.drop i) :
    text.take i ++ word = text.take (i + word.length) := by
  rw [List.take_add, ← List.prefix_iff_eq_take.mp h]

/-! ## The scan -/

/-- What has been scanned: the builder shows pieces whose source ends at `currentIndex`. -/
structure Scanned (text : Text) (s : Scan) : Prop where
  le : s.currentIndex ≤ s.pos
  pos_le : s.pos ≤ text.length
  shown : ∃ pieces : List Piece,
    pieces.flatMap Piece.source = text.take s.currentIndex ∧ s.builder = render pieces

variable {text : Text} {s : Scan}

theorem Scanned.styled (h : Scanned text s) {style : SpanStyle} {endPos : Nat}
    (hdelimits : Delimits text style.delimiter s.pos endPos) :
    ∃ t, TextFormatter.styled text style.delimiter style endPos s = some t ∧ Scanned text t := by
  have hlength := List.length_pos_of_ne_nil style.delimiter_ne_nil
  have hclosing := hdelimits.closing.length_le
  have hle := hdelimits.le
  rw [List.length_drop] at hclosing
  have hend : endPos + style.delimiter.length ≤ text.length := by omega
  obtain ⟨pieces, hsource, hbuilder⟩ := h.shown
  unfold TextFormatter.styled
  rw [substring_eq h.le h.pos_le, substring_eq hle (by omega)]
  refine ⟨_, rfl, Nat.le_refl _, hend, ?_⟩
  refine ⟨pieces ++ [.literal ((text.take s.pos).drop s.currentIndex)] ++
    [.styled style ((text.take endPos).drop (s.pos + style.delimiter.length))], ?_, ?_⟩
  · -- the opening delimiter, the inner text and the closing delimiter follow each other
    rw [List.flatMap_append, List.flatMap_append, List.flatMap_singleton, List.flatMap_singleton,
      hsource]
    show text.take s.currentIndex ++ (text.take s.pos).drop s.currentIndex ++
      (style.delimiter ++ (text.take endPos).drop (s.pos + style.delimiter.length) ++
        style.delimiter) = text.take (endPos + style.delimiter.length)
    rw [take_append_between text h.le, ← List.append_assoc, ← List.append_assoc,
      take_append_word hdelimits.opening, take_append_between text hle,
      take_append_word hdelimits.closing]
  · rw [render_styled, render_literal, hbuilder]

theorem Scanned.iteration (h : Scanned text s) (hpos : s.pos < text.length) :
    ∃ t, iteration text s = some t ∧ Scanned text t := by
  rcases iteration_cases text s with ⟨style, endPos, hdelimits, heq⟩ | heq
  · rw [heq]
    exact h.styled hdelimits
  · exact ⟨_, heq, Nat.le_succ_of_le h.le, hpos, h.shown⟩

/-- The text is the source of some pieces, and they are what `formatText` shows. -/
theorem exists_pieces (text : Text) :
    ∃ pieces : List Piece,
      pieces.flatMap Piece.source = text ∧ formatText text = some (render pieces) := by
  have hstart : Scanned text { pos := 0, currentIndex := 0, builder := .empty } :=
    ⟨Nat.le_refl 0, Nat.zero_le _, [], rfl, rfl⟩
  obtain ⟨s, hrun, hscanned, -⟩ := (loop text).run_spec
    (fun s h hguard => h.iteration (of_decide_eq_true hguard)) hstart
  obtain ⟨pieces, hsource, hbuilder⟩ := hscanned.shown
  have hle := hscanned.le.trans hscanned.pos_le
  unfold formatText
  rw [hrun]
  show ∃ pieces, _ ∧ (if s.currentIndex < text.length then _ else _) = _
  split
  · -- what has not been appended yet is one more literal
    refine ⟨pieces ++ [.literal ((text.take text.length).drop s.currentIndex)], ?_, ?_⟩
    · rw [List.flatMap_append, List.flatMap_singleton, hsource]
      exact (take_append_between text hle).trans List.take_length
    · rw [substring_eq hle (Nat.le_refl _), render_literal, hbuilder]
      rfl
  · next hend =>
    refine ⟨pieces, ?_, by rw [hbuilder]⟩
    rw [hsource]
    exact List.take_of_length_le (Nat.le_of_not_lt hend)

/-! ## Back to the input -/

end TextFormatter

namespace AnnotatedString

/-- The text from `offset` on, with the delimiters put back around the ranges. -/
def restoreFrom (text : Text) : Nat → List StyleRange → Text
  | offset, [] => text.drop offset
  | offset, r :: rs =>
    (text.take r.start).drop offset ++
      (r.style.delimiter ++ (text.take r.stop).drop r.start ++ r.style.delimiter) ++
        restoreFrom text r.stop rs

/-- Puts the delimiter of each span back around it. -/
def withDelimiters (s : AnnotatedString) : Text := restoreFrom s.text 0 s.spanStyles

end AnnotatedString

namespace TextFormatter

open AnnotatedString

theorem restoreFrom_spansFrom (ps : List Piece) (before : Text) {offset : Nat}
    (h : offset ≤ before.length) :
    restoreFrom (before ++ ps.flatMap Piece.plain) offset (Piece.spansFrom before.length ps) =
      before.drop offset ++ ps.flatMap Piece.source := by
  induction ps generalizing before offset with
  | nil => simp [Piece.spansFrom, restoreFrom]
  | cons p ps ih =>
    cases p with
    | literal text =>
      have hle : offset ≤ (before ++ text).length := by
        rw [List.length_append]
        omega
      have hrest := ih (before ++ text) hle
      rw [List.length_append, List.drop_append_of_le_length h] at hrest
      rw [List.flatMap_cons, List.flatMap_cons, ← List.append_assoc, ← List.append_assoc]
      exact hrest
    | styled style inner =>
      have hrest := ih (before ++ inner) (Nat.le_refl _)
      rw [List.length_append, List.drop_eq_nil_of_le (by rw [List.length_append]),
        List.nil_append] at hrest
      rw [Piece.spansFrom, restoreFrom, List.flatMap_cons, List.flatMap_cons]
      dsimp only [Piece.plain, Piece.source]
      rw [← List.append_assoc before inner, hrest, ← List.length_append, List.append_assoc before,
        List.take_left, ← List.append_assoc before, List.take_left, List.drop_left,
        List.append_assoc]

theorem withDelimiters_render (pieces : List Piece) :
    (render pieces).withDelimiters = pieces.flatMap Piece.source :=
  restoreFrom_spansFrom pieces [] (Nat.le_refl 0)

/--
**`formatText` only removes the delimiters it styled.**

It ends without an index error. The input is cut into literals and delimited parts. The result
shows the parts without their delimiters, and its spans are the ranges of the delimited parts.
-/
theorem formatText_pieces (text : Text) :
    ∃ (pieces : List Piece) (result : AnnotatedString), formatText text = some result ∧
      pieces.flatMap Piece.source = text ∧
      result.text = pieces.flatMap Piece.plain ∧
      result.spanStyles = Piece.spansFrom 0 pieces ∧
      result.spanStyles.Pairwise (fun a b => a.stop ≤ b.start) ∧
      (∀ r ∈ result.spanStyles, r.start ≤ r.stop ∧ r.stop ≤ result.text.length) ∧
      result.withDelimiters = text := by
  obtain ⟨pieces, hsource, hformat⟩ := exists_pieces text
  refine ⟨pieces, render pieces, hformat, hsource, rfl, rfl, Piece.spansFrom_pairwise 0 pieces,
    fun r hr => ?_, ?_⟩
  · obtain ⟨-, hle, hstop⟩ := Piece.spansFrom_bounds hr
    rw [Nat.zero_add] at hstop
    exact ⟨hle, hstop⟩
  · rw [withDelimiters_render, hsource]

/-- A bold word, and delimiters that nothing closes. -/
example :
    let pieces := [.literal (utf16 "so "), .styled .bold (utf16 "cute"), .literal (utf16 " ~~")]
    (render pieces).withDelimiters = utf16 "so **cute** ~~" := by decide

end TextFormatter

end Kaede
