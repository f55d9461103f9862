import Kaede.Text
import Kaede.Infra.WhileLoop

/-!
# `TextFormatter`

`formatText` scans a text for delimiters with two indices: `pos` moves on, and `currentIndex` is
where the text starts that has not been appended yet. Each branch of the loop looks for the
closing delimiter, and falls through to the next branch when there is none.

An `Option` that is `none` is an index error.
-/

namespace Kaede

open Infra

/-- What each branch sets in its `SpanStyle`. -/
inductive SpanStyle where
  /-- `FontWeight.Bold` -/
  | bold
  /-- `FontStyle.Italic` -/
  | italic
  /-- `TextDecoration.Underline` -/
  | underline
  /-- `FontFamily.Monospace` -/
  | monospace
  /-- `TextDecoration.LineThrough` -/
  | lineThrough
deriving DecidableEq, Repr

/-- A style and the range of the text that has it. -/
structure StyleRange where
  style : SpanStyle
  start : Nat
  stop : Nat
deriving DecidableEq, Repr

structure AnnotatedString where
  text : Text
  spanStyles : List StyleRange
deriving DecidableEq, Repr

namespace AnnotatedString

def empty : AnnotatedString := { text := [], spanStyles := [] }

/-- `append(text)`. -/
def append (builder : AnnotatedString) (text : Text) : AnnotatedString :=
  { builder with text := builder.text ++ text }

/-- `withStyle(style) { append(text) }`. -/
def appendStyled (builder : AnnotatedString) (style : SpanStyle) (text : Text) : AnnotatedString :=
  let start := builder.text.length
  let builder := builder.append text
  { builder with
    spanStyles := builder.spanStyles ++ [⟨style, start, builder.text.length⟩] }

end AnnotatedString

namespace TextFormatter

/-! ## The branches -/

/-- The end position that a branch finds, for all branches but one. -/
def delimitedEnd (text delimiter : Text) (pos : Nat) : Option Nat :=
  if startsWith text delimiter pos then indexOf text delimiter (pos + delimiter.length) else none

def boldEnd (text : Text) (pos : Nat) : Option Nat := delimitedEnd text (utf16 "**") pos

/-- The closing delimiter must not be followed by another one. -/
def italicEnd (text : Text) (pos : Nat) : Option Nat :=
  if startsWith text (utf16 "*") pos && !startsWith text (utf16 "**") pos then
    (indexOf text (utf16 "*") (pos + 1)).filter fun endPos =>
      !startsWith text (utf16 "*") (endPos + 1)
  else none

def underlineEnd (text : Text) (pos : Nat) : Option Nat := delimitedEnd text (utf16 "_") pos

def codeEnd (text : Text) (pos : Nat) : Option Nat := delimitedEnd text (utf16 "`") pos

def strikethroughEnd (text : Text) (pos : Nat) : Option Nat := delimitedEnd text (utf16 "~~") pos

/-! ## The loop -/

/-- The local variables of the scan. -/
structure Scan where
  pos : Nat
  currentIndex : Nat
  builder : AnnotatedString
deriving DecidableEq, Repr

/-- The body of a branch: what stands before the delimiter, and then the styled text. -/
def styled (text delimiter : Text) (style : SpanStyle) (endPos : Nat) (s : Scan) :
    Option Scan := do
  let before ← substring text s.currentIndex s.pos
  let inner ← substring text (s.pos + delimiter.length) endPos
  let pos := endPos + delimiter.length
  some
    { pos := pos, currentIndex := pos,
      builder := (s.builder.append before).appendStyled style inner }

/-- One iteration. The branches are tried in this order. -/
def iteration (text : Text) (s : Scan) : Option Scan :=
  match boldEnd text s.pos with
  | some endPos => styled text (utf16 "**") .bold endPos s
  | none =>
    match italicEnd text s.pos with
    | some endPos => styled text (utf16 "*") .italic endPos s
    | none =>
      match underlineEnd text s.pos with
      | some endPos => styled text (utf16 "_") .underline endPos s
      | none =>
        match codeEnd text s.pos with
        | some endPos => styled text (utf16 "`") .monospace endPos s
        | none =>
          match strikethroughEnd text s.pos with
          | some endPos => styled text (utf16 "~~") .lineThrough endPos s
          | none => some { s with pos := s.pos + 1 }

/-! ## What an iteration does -/

end TextFormatter

/-- The delimiter that gives a style. -/
def SpanStyle.delimiter : SpanStyle → Text
  | .bold => utf16 "**"
  | .italic => utf16 "*"
  | .underline => utf16 "_"
  | .monospace => utf16 "`"
  | .lineThrough => utf16 "~~"

theorem SpanStyle.delimiter_ne_nil (style : SpanStyle) : style.delimiter ≠ [] := by
  cases style <;> exact utf16_ne_nil (by decide)

namespace TextFormatter

/-- The delimiter stands at `pos`, and once more at `endPos` or where it ends. -/
structure Delimits (text delimiter : Text) (pos endPos : Nat) : Prop where
  opening : delimiter <+: text.drop pos
  le : pos + delimiter.length ≤ endPos
  closing : delimiter <+: text.drop endPos

theorem delimits_of_delimitedEnd {text delimiter : Text} {pos endPos : Nat}
    (h : delimitedEnd text delimiter pos = some endPos) : Delimits text delimiter pos endPos := by
  unfold delimitedEnd at h
  split at h
  · next hopening =>
    obtain ⟨hle, hclosing⟩ := indexOf_spec h
    exact ⟨startsWith_iff.mp hopening, hle, hclosing⟩
  · cases h

theorem delimits_of_italicEnd {text : Text} {pos endPos : Nat}
    (h : italicEnd text pos = some endPos) : Delimits text (utf16 "*") pos endPos := by
  unfold italicEnd at h
  split at h
  · next hopening =>
    obtain ⟨hle, hclosing⟩ := indexOf_spec (Option.filter_eq_some_iff.mp h).1
    exact ⟨startsWith_iff.mp (Bool.and_eq_true_iff.mp hopening).1, hle, hclosing⟩
  · cases h

/-- An iteration moves on by one, or it styles what stands between two delimiters. -/
theorem iteration_cases (text : Text) (s : Scan) :
    (∃ (style : SpanStyle) (endPos : Nat), Delimits text style.delimiter s.pos endPos ∧
        iteration text s = styled text style.delimiter style endPos s) ∨
      iteration text s = some { s with pos := s.pos + 1 } := by
  unfold iteration
  split
  · next endPos h => exact Or.inl ⟨.bold, endPos, delimits_of_delimitedEnd h, rfl⟩
  · split
    · next endPos h => exact Or.inl ⟨.italic, endPos, delimits_of_italicEnd h, rfl⟩
    · split
      · next endPos h => exact Or.inl ⟨.underline, endPos, delimits_of_delimitedEnd h, rfl⟩
      · split
        · next endPos h => exact Or.inl ⟨.monospace, endPos, delimits_of_delimitedEnd h, rfl⟩
        · split
          · next endPos h => exact Or.inl ⟨.lineThrough, endPos, delimits_of_delimitedEnd h, rfl⟩
          · exact Or.inr rfl

/-- Every iteration moves on. -/
theorem pos_lt_of_iteration {text : Text} {s t : Scan} (h : iteration text s = some t) :
    s.pos < t.pos := by
  rcases iteration_cases text s with ⟨style, endPos, hdelimits, heq⟩ | heq
  · rw [heq] at h
    unfold styled at h
    obtain ⟨before, -, h⟩ := Option.bind_eq_some_iff.mp h
    obtain ⟨inner, -, h⟩ := Option.bind_eq_some_iff.mp h
    rw [Option.some.injEq] at h
    have hlength := List.length_pos_of_ne_nil style.delimiter_ne_nil
    have hle := hdelimits.le
    rw [← h]
    show s.pos < endPos + style.delimiter.length
    omega
  · rw [heq, Option.some.injEq] at h
    rw [← h]
    exact Nat.lt_succ_self s.pos

/-! ## `formatText` -/

/-- `while (pos < text.length)`. -/
def loop (text : Text) : WhileLoop Scan where
  guard s := decide (s.pos < text.length)
  body := iteration text
  measure s := text.length - s.pos
  decreases s t hguard hbody := by
    have hguard : s.pos < text.length := of_decide_eq_true hguard
    have hlt := pos_lt_of_iteration hbody
    omega

def formatText (text : Text) : Option AnnotatedString := do
  let s ← (loop text).run { pos := 0, currentIndex := 0, builder := .empty }
  if s.currentIndex < text.length then
    let rest ← substring text s.currentIndex text.length
    some (s.builder.append rest)
  else some s.builder

end TextFormatter

end Kaede
