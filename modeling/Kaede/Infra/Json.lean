import Mathlib.Computability.RegularExpressions

/-!
# JSON

The grammar of RFC 8259 over UTF-16 code units. A number is kept as it is written.

* `IsText.eq` — a text denotes at most one value
* `IsText.isJsonUnit` — the units that can stand in a text
-/

namespace Kaede.Infra

/-- A check of a list, one element after the other. The search for a `Decidable` instance may prefer
to check the whole type. -/
theorem forall_mem_of_all {α : Type*} {q : α → Prop} [DecidablePred q] {l : List α}
    (h : l.all (q ·) = true) : ∀ x ∈ l, q x :=
  fun x hx => of_decide_eq_true (List.all_eq_true.mp h x hx)

inductive Json where
  | null
  | bool (value : Bool)
  | number (lexeme : List UInt16)
  | string (value : List UInt16)
  | array (elements : List Json)
  | object (members : List (List UInt16 × Json))

namespace Json

/-- The member of an object with this name. -/
def member? (name : List UInt16) : Json → Option Json
  | .object members => (members.find? fun member => member.1 == name).map (·.2)
  | _ => none

/-! ## Units -/

/-- An ASCII literal. -/
def ascii (s : String) : List UInt16 := s.toList.map fun c => UInt16.ofNat c.toNat

abbrev quote : UInt16 := 0x22
abbrev comma : UInt16 := 0x2C
abbrev colon : UInt16 := 0x3A
abbrev openBracket : UInt16 := 0x5B
abbrev backslash : UInt16 := 0x5C
abbrev closeBracket : UInt16 := 0x5D
abbrev openBrace : UInt16 := 0x7B
abbrev closeBrace : UInt16 := 0x7D

def isWs (c : UInt16) : Bool := c == 0x20 || c == 0x09 || c == 0x0A || c == 0x0D

/-- A unit of `null`, `true`, `false` or a number. -/
def isWord (c : UInt16) : Bool := (ascii "0123456789+-.Eaeflnrstu").contains c

/-! ## Numbers -/

def oneOf (units : List UInt16) : RegularExpression UInt16 :=
  units.foldr (fun c r => .char c + r) 0

def digit : RegularExpression UInt16 := oneOf (ascii "0123456789")

/-- `[ minus ] int [ frac ] [ exp ]`. -/
def numeral : RegularExpression UInt16 :=
  (1 + .char 0x2D) * (.char 0x30 + oneOf (ascii "123456789") * digit.star) *
    (1 + .char 0x2E * (digit * digit.star)) *
    (1 + oneOf (ascii "eE") * (1 + oneOf (ascii "+-")) * (digit * digit.star))

/-! ## Strings -/

/-- What a unit stands for after a backslash. -/
def unescape (c : UInt16) : Option UInt16 :=
  if c = quote ∨ c = backslash ∨ c = 0x2F then some c
  else if c = 0x62 then some 0x08
  else if c = 0x66 then some 0x0C
  else if c = 0x6E then some 0x0A
  else if c = 0x72 then some 0x0D
  else if c = 0x74 then some 0x09
  else none

def hexDigit (c : UInt16) : Option UInt16 :=
  if 0x30 ≤ c ∧ c ≤ 0x39 then some (c - 0x30)
  else if 0x41 ≤ c ∧ c ≤ 0x46 then some (c - 0x37)
  else if 0x61 ≤ c ∧ c ≤ 0x66 then some (c - 0x57)
  else none

/-- The unit that four hexadecimal digits stand for. -/
def hexUnit (digits : List UInt16) : Option UInt16 :=
  (digits.mapM hexDigit).map fun values => values.foldl (fun n d => n * 16 + d) 0

/-- What is between the quotation marks, and what it stands for. -/
inductive Chars : List UInt16 → List UInt16 → Prop
  | nil : Chars [] []
  | unescaped {c : UInt16} {s t : List UInt16} (hc : 0x20 ≤ c) (hquote : c ≠ quote)
    (hbackslash : c ≠ backslash) (h : Chars s t) : Chars (c :: s) (c :: t)
  | escaped {e c : UInt16} {s t : List UInt16} (he : unescape e = some c) (h : Chars s t) :
    Chars (backslash :: e :: s) (c :: t)
  | hex {digits : List UInt16} {c : UInt16} {s t : List UInt16} (hfour : digits.length = 4)
    (hdigits : hexUnit digits = some c) (h : Chars s t) :
    Chars (backslash :: 0x75 :: digits ++ s) (c :: t)

/-! ## Values -/

/-- `s` is `b` with whitespace around it. -/
def Padded (s b : List UInt16) : Prop :=
  ∃ w w', (∀ c ∈ w, isWs c = true) ∧ (∀ c ∈ w', isWs c = true) ∧ s = w ++ b ++ w'

/-- What a piece of a text can be: a value, or what is between brackets or braces. -/
inductive Part where
  | value (v : Json)
  | elements (vs : List Json)
  | members (ms : List (List UInt16 × Json))

inductive Derives : List UInt16 → Part → Prop
  | null : Derives (ascii "null") (.value .null)
  | true : Derives (ascii "true") (.value (.bool true))
  | false : Derives (ascii "false") (.value (.bool false))
  | number {s : List UInt16} (h : s ∈ numeral.matches') : Derives s (.value (.number s))
  | string {s t : List UInt16} (h : Chars s t) :
    Derives (quote :: s ++ [quote]) (.value (.string t))
  | emptyArray {w : List UInt16} (hw : ∀ c ∈ w, isWs c = true) :
    Derives (openBracket :: w ++ [closeBracket]) (.value (.array []))
  | array {s : List UInt16} {vs : List Json} (h : Derives s (.elements vs)) :
    Derives (openBracket :: s ++ [closeBracket]) (.value (.array vs))
  | emptyObject {w : List UInt16} (hw : ∀ c ∈ w, isWs c = true) :
    Derives (openBrace :: w ++ [closeBrace]) (.value (.object []))
  | object {s : List UInt16} {ms : List (List UInt16 × Json)} (h : Derives s (.members ms)) :
    Derives (openBrace :: s ++ [closeBrace]) (.value (.object ms))
  | element {s b : List UInt16} {v : Json} (hs : Padded s b) (h : Derives b (.value v)) :
    Derives s (.elements [v])
  | elements {s b rest : List UInt16} {v : Json} {vs : List Json} (hs : Padded s b)
    (h : Derives b (.value v)) (hrest : Derives rest (.elements vs)) :
    Derives (s ++ comma :: rest) (.elements (v :: vs))
  | member {k name key s b : List UInt16} {v : Json} (hk : Padded k (quote :: name ++ [quote]))
    (hname : Chars name key) (hs : Padded s b) (h : Derives b (.value v)) :
    Derives (k ++ colon :: s) (.members [(key, v)])
  | members {k name key s b rest : List UInt16} {v : Json} {ms : List (List UInt16 × Json)}
    (hk : Padded k (quote :: name ++ [quote])) (hname : Chars name key) (hs : Padded s b)
    (h : Derives b (.value v)) (hrest : Derives rest (.members ms)) :
    Derives (k ++ colon :: s ++ comma :: rest) (.members ((key, v) :: ms))

/-- `JSON-text = ws value ws`. -/
def IsText (s : List UInt16) (v : Json) : Prop := ∃ b, Padded s b ∧ Derives b (.value v)

/-! ## Reading -/

/-- Where in a string the next unit stands: on its own, after a backslash, or after `\\u` and some
of its digits. -/
inductive Place where
  | plain
  | escaped
  | hex (digits : List UInt16)

/-- A string up to its closing quotation mark. -/
def readChars : Place → List UInt16 → Option (List UInt16 × List UInt16)
  | _, [] => none
  | .plain, c :: s =>
    if c = quote then some ([], s)
    else if c = backslash then readChars .escaped s
    else if 0x20 ≤ c then (readChars .plain s).map fun (t, rest) => (c :: t, rest)
    else none
  | .escaped, e :: s =>
    if e = 0x75 then readChars (.hex []) s
    else (unescape e).bind fun c => (readChars .plain s).map fun (t, rest) => (c :: t, rest)
  | .hex digits, d :: s =>
    if digits.length = 3 then
      (hexUnit (digits ++ [d])).bind fun c =>
        (readChars .plain s).map fun (t, rest) => (c :: t, rest)
    else readChars (.hex (digits ++ [d])) s

def readWord (word : List UInt16) : Option Json :=
  if word = ascii "null" then some .null
  else if word = ascii "true" then some (.bool true)
  else if word = ascii "false" then some (.bool false)
  else if numeral.rmatch word then some (.number word)
  else none

def skipWs (s : List UInt16) : List UInt16 := s.dropWhile isWs

/-- What follows `closing`, if it comes next. -/
def closes (closing : UInt16) (s : List UInt16) : Option (List UInt16) :=
  match skipWs s with
  | [] => none
  | c :: rest => if c = closing then some rest else none

mutual

/-- A value, and what follows it. -/
def readValue : Nat → List UInt16 → Option (Json × List UInt16)
  | 0, _ | _ + 1, [] => none
  | n + 1, c :: s =>
    if c = quote then (readChars .plain s).map fun (t, rest) => (.string t, rest)
    else if c = openBracket then
      match closes closeBracket s with
      | some rest => some (.array [], rest)
      | none => (readElements n s).map fun (vs, rest) => (.array vs, rest)
    else if c = openBrace then
      match closes closeBrace s with
      | some rest => some (.object [], rest)
      | none => (readMembers n s).map fun (ms, rest) => (.object ms, rest)
    else
      (readWord ((c :: s).takeWhile isWord)).map fun v => (v, (c :: s).dropWhile isWord)

/-- A value with whitespace around it. -/
def readPadded : Nat → List UInt16 → Option (Json × List UInt16)
  | 0, _ => none
  | n + 1, s => (readValue n (skipWs s)).map fun (v, rest) => (v, skipWs rest)

/-- The elements of an array up to its closing bracket. -/
def readElements : Nat → List UInt16 → Option (List Json × List UInt16)
  | 0, _ => none
  | n + 1, s =>
    match readPadded n s with
    | some (v, c :: rest) =>
      if c = comma then (readElements n rest).map fun (vs, rest) => (v :: vs, rest)
      else if c = closeBracket then some ([v], rest)
      else none
    | _ => none

/-- The members of an object up to its closing brace. -/
def readMembers : Nat → List UInt16 → Option (List (List UInt16 × Json) × List UInt16)
  | 0, _ => none
  | n + 1, s =>
    match readPadded n s with
    | some (.string key, c :: rest) =>
      if c = colon then
        match readPadded n rest with
        | some (v, c :: rest) =>
          if c = comma then (readMembers n rest).map fun (ms, rest) => ((key, v) :: ms, rest)
          else if c = closeBrace then some ([(key, v)], rest)
          else none
        | _ => none
      else none
    | _ => none

end

/-- A whole text. -/
def read (s : List UInt16) : Option Json :=
  match readPadded (2 * s.length + 2) s with
  | some (v, []) => some v
  | _ => none

variable {s t b : List UInt16} {v v' : Json} {p : Part}

/-! ## Whitespace -/

theorem Padded.refl (b : List UInt16) : Padded b b := ⟨[], [], by simp, by simp, by simp⟩

theorem skipWs_ws_append {w : List UInt16} (hw : ∀ c ∈ w, isWs c = true) (s : List UInt16) :
    skipWs (w ++ s) = skipWs s := List.dropWhile_append_of_pos hw

theorem skipWs_cons {c : UInt16} (hc : isWs c = false) (s : List UInt16) :
    skipWs (c :: s) = c :: s := List.dropWhile_cons_of_neg (by rw [hc]; exact Bool.false_ne_true)

/-- The units of whitespace are not units of words. -/
theorem isWord_of_isWs {c : UInt16} (hc : isWs c = true) : isWord c = false := by
  simp only [isWs, Bool.or_eq_true, beq_iff_eq] at hc
  rcases hc with ((rfl | rfl) | rfl) | rfl <;> decide

/-! ## Words -/

/-- All units in the expression meet the condition. -/
def allUnits (q : UInt16 → Bool) : RegularExpression UInt16 → Bool
  | .zero | .epsilon => true
  | .char c => q c
  | .plus P Q | .comp P Q => allUnits q P && allUnits q Q
  | .star P => allUnits q P

theorem of_mem_matches' {q : UInt16 → Bool} {P : RegularExpression UInt16}
    (hP : allUnits q P = true) (hs : s ∈ P.matches') : ∀ c ∈ s, q c = true := by
  induction P generalizing s with
  | zero => cases hs
  | epsilon =>
    rw [Set.mem_singleton_iff.mp hs]
    exact fun c hc => nomatch hc
  | char c =>
    rw [Set.mem_singleton_iff.mp hs]
    exact List.forall_mem_singleton.mpr hP
  | plus P Q ihP ihQ =>
    obtain ⟨hP, hQ⟩ := Bool.and_eq_true_iff.mp hP
    rcases hs with hs | hs
    · exact ihP hP hs
    · exact ihQ hQ hs
  | comp P Q ihP ihQ =>
    obtain ⟨hP, hQ⟩ := Bool.and_eq_true_iff.mp hP
    obtain ⟨x, hx, y, hy, rfl⟩ := Language.mem_mul.mp hs
    exact List.forall_mem_append.mpr ⟨ihP hP hx, ihQ hQ hy⟩
  | star P ih =>
    obtain ⟨words, rfl, hwords⟩ := Language.mem_kstar.mp hs
    intro c hc
    obtain ⟨word, hword, hc⟩ := List.mem_flatten.mp hc
    exact ih hP (hwords word hword) c hc

theorem mem_oneOf {c : UInt16} {units : List UInt16} (hc : c ∈ units) :
    [c] ∈ (oneOf units).matches' := by
  induction units with
  | nil => cases hc
  | cons u units ih =>
    rcases List.mem_cons.mp hc with rfl | hc
    · exact Or.inl (Set.mem_singleton _)
    · exact Or.inr (ih hc)

theorem isWord_of_mem_numeral (hs : s ∈ numeral.matches') : ∀ c ∈ s, isWord c = true :=
  of_mem_matches' (by decide) hs

theorem ne_nil_of_mem_numeral (hs : s ∈ numeral.matches') : s ≠ [] := by
  rintro rfl
  have hmatch := (RegularExpression.rmatch_iff_matches' numeral []).mpr hs
  revert hmatch
  decide

/-- What stops a word. -/
def Stops (t : List UInt16) : Prop := ∀ c ∈ t.head?, isWord c = false

theorem takeWhile_word (hs : ∀ c ∈ s, isWord c = true) (ht : Stops t) :
    (s ++ t).takeWhile isWord = s ∧ (s ++ t).dropWhile isWord = t := by
  rw [List.takeWhile_append_of_pos hs, List.dropWhile_append_of_pos hs]
  cases t with
  | nil => simp
  | cons c t =>
    have hc : ¬ isWord c = true := by rw [ht c rfl]; exact Bool.false_ne_true
    rw [List.takeWhile_cons_of_neg hc, List.dropWhile_cons_of_neg hc, List.append_nil]
    exact ⟨rfl, rfl⟩

/-- A word that is read as `v` is read up to where it stops. -/
theorem readValue_word (hne : s ≠ []) (hs : ∀ c ∈ s, isWord c = true) (hv : readWord s = some v)
    (n : Nat) (ht : Stops t) : readValue (n + 1) (s ++ t) = some (v, t) := by
  obtain ⟨htake, hdrop⟩ := takeWhile_word hs ht
  cases s with
  | nil => exact absurd rfl hne
  | cons c s =>
    have hc := hs c List.mem_cons_self
    have hother : c ≠ quote ∧ c ≠ openBracket ∧ c ≠ openBrace := by
      refine ⟨?_, ?_, ?_⟩ <;> rintro rfl <;> revert hc <;> decide
    rw [List.cons_append] at htake hdrop ⊢
    rw [readValue, if_neg hother.1, if_neg hother.2.1, if_neg hother.2.2, htake, hdrop, hv]
    rfl

theorem readWord_numeral (hs : s ∈ numeral.matches') : readWord s = some (.number s) := by
  have hmatch := (RegularExpression.rmatch_iff_matches' numeral s).mpr hs
  have hother : s ≠ ascii "null" ∧ s ≠ ascii "true" ∧ s ≠ ascii "false" := by
    refine ⟨?_, ?_, ?_⟩ <;> rintro rfl <;> revert hmatch <;> decide
  rw [readWord, if_neg hother.1, if_neg hother.2.1, if_neg hother.2.2, if_pos hmatch]

/-! ## Strings -/

/-- A string of plain units stands for itself. -/
theorem Chars.self (h : ∀ c ∈ s, 0x20 ≤ c ∧ c ≠ quote ∧ c ≠ backslash) : Chars s s := by
  induction s with
  | nil => exact .nil
  | cons c s ih =>
    obtain ⟨⟨hc, hquote, hbackslash⟩, hs⟩ := List.forall_mem_cons.mp h
    exact .unescaped hc hquote hbackslash (ih hs)

theorem readChars_append {raw : List UInt16} (h : Chars raw t) (rest : List UInt16) :
    readChars .plain (raw ++ quote :: rest) = some (t, rest) := by
  induction h with
  | nil => rfl
  | unescaped hc hquote hbackslash h ih =>
    rw [List.cons_append, readChars, if_neg hquote, if_neg hbackslash, if_pos hc, ih]
    rfl
  | @escaped e c s t he h ih =>
    have hu : e ≠ 0x75 := by
      rintro rfl
      cases he
    rw [List.cons_append, List.cons_append, readChars, if_neg (by decide), if_pos rfl, readChars,
      if_neg hu, he, Option.bind_some, ih]
    rfl
  | @hex digits c s t hfour hdigits h ih =>
    match digits, hfour with
    | [d₁, d₂, d₃, d₄], _ =>
      simp only [List.cons_append, List.nil_append]
      rw [readChars, if_neg (by decide), if_pos rfl, readChars, if_pos rfl]
      -- three digits are gathered, the fourth completes the unit
      rw [readChars, if_neg (by simp), readChars, if_neg (by simp), readChars, if_neg (by simp),
        readChars, if_pos (by simp)]
      simp only [List.cons_append, List.nil_append]
      rw [hdigits, Option.bind_some, ih]
      rfl

/-! ## The reader reads every text -/

/-- A value starts with a unit that is neither whitespace nor closes anything. -/
def Starts (b : List UInt16) : Prop :=
  ∃ c s, b = c :: s ∧ isWs c = false ∧ c ≠ closeBracket ∧ c ≠ closeBrace

theorem starts_of_word (hne : s ≠ []) (hs : ∀ c ∈ s, isWord c = true) : Starts s := by
  cases s with
  | nil => exact absurd rfl hne
  | cons c s =>
    have hc := hs c List.mem_cons_self
    refine ⟨c, s, rfl, ?_, ?_, ?_⟩
    · by_contra hws
      rw [isWord_of_isWs (Bool.eq_true_of_not_eq_false hws)] at hc
      cases hc
    · rintro rfl
      revert hc
      decide
    · rintro rfl
      revert hc
      decide

theorem starts_of_derives (h : Derives b (.value v)) : Starts b := by
  cases h with
  | null => exact starts_of_word (by decide) (forall_mem_of_all (by decide))
  | true => exact starts_of_word (by decide) (forall_mem_of_all (by decide))
  | false => exact starts_of_word (by decide) (forall_mem_of_all (by decide))
  | number h => exact starts_of_word (ne_nil_of_mem_numeral h) (isWord_of_mem_numeral h)
  | string h => exact ⟨_, _, rfl, by decide, by decide, by decide⟩
  | emptyArray hw => exact ⟨_, _, rfl, by decide, by decide, by decide⟩
  | array h => exact ⟨_, _, rfl, by decide, by decide, by decide⟩
  | emptyObject hw => exact ⟨_, _, rfl, by decide, by decide, by decide⟩
  | object h => exact ⟨_, _, rfl, by decide, by decide, by decide⟩

/-- What follows a value: nothing, or a unit that belongs neither to whitespace nor to a word. -/
def Follows (t : List UInt16) : Prop := ∀ c ∈ t.head?, isWs c = false ∧ isWord c = false

theorem skipWs_of_follows {w : List UInt16} (hw : ∀ c ∈ w, isWs c = true) (ht : Follows t) :
    skipWs (w ++ t) = t := by
  rw [skipWs_ws_append hw]
  cases t with
  | nil => rfl
  | cons c t => exact skipWs_cons (ht c rfl).1 t

theorem stops_of_follows {w : List UInt16} (hw : ∀ c ∈ w, isWs c = true) (ht : Follows t) :
    Stops (w ++ t) := by
  cases w with
  | nil => exact fun c hc => (ht c hc).2
  | cons c w =>
    rintro d ⟨⟩
    exact isWord_of_isWs (hw c List.mem_cons_self)

theorem follows_cons {c : UInt16} (hws : isWs c = false) (hword : isWord c = false) :
    Follows (c :: t) := by
  rintro d ⟨⟩
  exact ⟨hws, hword⟩

/-- What is between brackets or braces does not start with a closing one. -/
theorem closes_eq_none (hs : Padded s b) (hb : Starts b) {closing : UInt16}
    (hclosing : closing = closeBracket ∨ closing = closeBrace) (t : List UInt16) :
    closes closing (s ++ t) = none := by
  obtain ⟨w, w', hw, -, rfl⟩ := hs
  obtain ⟨c, b, rfl, hws, hbracket, hbrace⟩ := hb
  have hne : c ≠ closing := by
    rcases hclosing with rfl | rfl
    · exact hbracket
    · exact hbrace
  rw [closes, List.append_assoc, List.append_assoc, skipWs_ws_append hw, List.cons_append,
    skipWs_cons hws]
  exact if_neg hne

theorem closes_of_ws {w : List UInt16} (hw : ∀ c ∈ w, isWs c = true) {closing : UInt16}
    (hclosing : isWs closing = false) (t : List UInt16) :
    closes closing (w ++ closing :: t) = some t := by
  rw [closes, skipWs_ws_append hw, skipWs_cons hclosing]
  exact if_pos rfl

/-- With enough fuel, the reader reads this part up to its end. -/
def Reads (s : List UInt16) : Part → Prop
  | .value v => ∀ n t, 2 * s.length < n → Stops t → readValue n (s ++ t) = some (v, t)
  | .elements vs => ∀ n t, 2 * s.length + 2 < n →
    closes closeBracket (s ++ closeBracket :: t) = none ∧
      readElements n (s ++ closeBracket :: t) = some (vs, t)
  | .members ms => ∀ n t, 2 * s.length + 2 < n →
    closes closeBrace (s ++ closeBrace :: t) = none ∧
      readMembers n (s ++ closeBrace :: t) = some (ms, t)

/-- A value is read with the whitespace around it. -/
theorem readPadded_of_reads (hs : Padded s b) (hb : Starts b) (h : Reads b (.value v)) {n : Nat}
    (hn : 2 * s.length + 1 < n) (ht : Follows t) : readPadded n (s ++ t) = some (v, t) := by
  obtain ⟨w, w', hw, hw', rfl⟩ := hs
  obtain ⟨c, b', hbc, hws, -, -⟩ := hb
  cases n with
  | zero => omega
  | succ n =>
    simp only [List.length_append] at hn
    have hvalue := h n (w' ++ t) (by omega) (stops_of_follows hw' ht)
    have hskip : skipWs (b ++ (w' ++ t)) = b ++ (w' ++ t) := by
      rw [hbc]
      exact skipWs_cons hws _
    rw [readPadded, List.append_assoc, List.append_assoc, skipWs_ws_append hw, hskip, hvalue,
      Option.map_some]
    simp only [skipWs_of_follows hw' ht]

theorem enclosed_append (opening closing : UInt16) (s t : List UInt16) :
    opening :: s ++ [closing] ++ t = opening :: (s ++ closing :: t) := by
  rw [List.cons_append, List.cons_append, List.append_assoc, List.singleton_append]

theorem reads_word (hne : s ≠ []) (hs : ∀ c ∈ s, isWord c = true) (hv : readWord s = some v) :
    Reads s (.value v) := by
  intro n t hn ht
  cases n with
  | zero => omega
  | succ n => exact readValue_word hne hs hv n ht

theorem reads_string (h : Chars s t) : Reads (quote :: s ++ [quote]) (.value (.string t)) := by
  intro n rest hn hrest
  cases n with
  | zero => omega
  | succ n =>
    rw [enclosed_append, readValue, if_pos rfl, readChars_append h]
    rfl

/-- A key is read as a string, up to the colon. -/
theorem readMembers_key {k name key : List UInt16} (hk : Padded k (quote :: name ++ [quote]))
    (hname : Chars name key) {n : Nat} (hn : 2 * k.length + 1 < n) (rest : List UInt16) :
    readMembers (n + 1) (k ++ colon :: rest) =
      match readPadded n rest with
      | some (v, c :: rest) =>
        if c = comma then (readMembers n rest).map fun (ms, rest) => ((key, v) :: ms, rest)
        else if c = closeBrace then some ([(key, v)], rest)
        else none
      | _ => none := by
  rw [readMembers, readPadded_of_reads hk (starts_of_derives (.string hname)) (reads_string hname)
    hn (follows_cons (by decide) (by decide))]
  dsimp only
  rw [if_pos rfl]

/-- **The reader reads what the grammar derives.** -/
theorem reads_of_derives (h : Derives s p) : Reads s p := by
  induction h with
  | null => exact reads_word (by decide) (forall_mem_of_all (by decide)) rfl
  | true => exact reads_word (by decide) (forall_mem_of_all (by decide)) rfl
  | false => exact reads_word (by decide) (forall_mem_of_all (by decide)) rfl
  | number h =>
    exact reads_word (ne_nil_of_mem_numeral h) (isWord_of_mem_numeral h) (readWord_numeral h)
  | string h => exact reads_string h
  | emptyArray hw =>
    intro n t hn ht
    cases n with
    | zero => omega
    | succ n =>
      rw [enclosed_append, readValue, if_neg (by decide), if_pos rfl, closes_of_ws hw (by decide)]
  | array h ih =>
    intro n t hn ht
    cases n with
    | zero => omega
    | succ n =>
      simp only [List.length_append, List.length_cons, List.length_nil] at hn
      obtain ⟨hopen, hread⟩ := ih n t (by omega)
      rw [enclosed_append, readValue, if_neg (by decide), if_pos rfl, hopen]
      simp only [hread, Option.map_some]
  | emptyObject hw =>
    intro n t hn ht
    cases n with
    | zero => omega
    | succ n =>
      rw [enclosed_append, readValue, if_neg (by decide), if_neg (by decide), if_pos rfl,
        closes_of_ws hw (by decide)]
  | object h ih =>
    intro n t hn ht
    cases n with
    | zero => omega
    | succ n =>
      simp only [List.length_append, List.length_cons, List.length_nil] at hn
      obtain ⟨hopen, hread⟩ := ih n t (by omega)
      rw [enclosed_append, readValue, if_neg (by decide), if_neg (by decide), if_pos rfl, hopen]
      simp only [hread, Option.map_some]
  | element hs h ih =>
    intro n t hn
    cases n with
    | zero => omega
    | succ n =>
      have hb := starts_of_derives h
      refine ⟨closes_eq_none hs hb (Or.inl rfl) _, ?_⟩
      rw [readElements, readPadded_of_reads hs hb ih (by omega)
        (follows_cons (by decide) (by decide))]
      rfl
  | @elements s b rest v vs hs h hrest ih ihRest =>
    intro n t hn
    cases n with
    | zero => omega
    | succ n =>
      simp only [List.length_append, List.length_cons] at hn
      have hb := starts_of_derives h
      rw [List.append_assoc, List.cons_append]
      refine ⟨closes_eq_none hs hb (Or.inl rfl) _, ?_⟩
      rw [readElements, readPadded_of_reads hs hb ih (by omega)
        (follows_cons (by decide) (by decide))]
      dsimp only
      rw [if_pos rfl, (ihRest n t (by omega)).2]
      rfl
  | @member k name key s b v hk hname hs h ih =>
    intro n t hn
    cases n with
    | zero => omega
    | succ n =>
      simp only [List.length_append, List.length_cons] at hn
      rw [List.append_assoc, List.cons_append]
      refine ⟨closes_eq_none hk (starts_of_derives (.string hname)) (Or.inr rfl) _, ?_⟩
      rw [readMembers_key hk hname (by omega), readPadded_of_reads hs (starts_of_derives h) ih
        (by omega) (follows_cons (by decide) (by decide))]
      rfl
  | @members k name key s b rest v ms hk hname hs h hrest ih ihRest =>
    intro n t hn
    cases n with
    | zero => omega
    | succ n =>
      simp only [List.length_append, List.length_cons] at hn
      rw [List.append_assoc, List.append_assoc, List.cons_append, List.cons_append]
      refine ⟨closes_eq_none hk (starts_of_derives (.string hname)) (Or.inr rfl) _, ?_⟩
      rw [readMembers_key hk hname (by omega), readPadded_of_reads hs (starts_of_derives h) ih
        (by omega) (follows_cons (by decide) (by decide))]
      dsimp only
      rw [if_pos rfl, (ihRest n t (by omega)).2]
      rfl

/-! ## Texts -/

theorem read_of_isText (h : IsText s v) : read s = some v := by
  obtain ⟨b, hs, hb⟩ := h
  have hread : readPadded (2 * s.length + 2) (s ++ []) = some (v, []) :=
    readPadded_of_reads hs (starts_of_derives hb) (reads_of_derives hb) (by omega)
      fun _ hc => nomatch hc
  rw [List.append_nil] at hread
  rw [read, hread]

/-- **A text denotes at most one value.** -/
theorem IsText.eq (h : IsText s v) (h' : IsText s v') : v = v' := by
  have hread := read_of_isText h
  rw [read_of_isText h'] at hread
  exact (Option.some.inj hread).symm

/-- A unit that can stand in a text. Control units are ruled out, except as whitespace. -/
def IsJsonUnit (c : UInt16) : Prop := 0x20 ≤ c ∨ isWs c = true

instance (c : UInt16) : Decidable (IsJsonUnit c) :=
  inferInstanceAs (Decidable (0x20 ≤ c ∨ isWs c = true))

theorem isJsonUnit_of_isWord {c : UInt16} (h : isWord c = true) : IsJsonUnit c := by
  have hall : ∀ c ∈ ascii "0123456789+-.Eaeflnrstu", 0x20 ≤ c := forall_mem_of_all (by decide)
  exact Or.inl (hall c (List.contains_iff_mem.mp h))

/-- A function without values at the control units has its values elsewhere. -/
theorem isJsonUnit_of_eq_some {f : UInt16 → Option UInt16}
    (hf : ∀ n < 0x20, f (UInt16.ofNat n) = none) {d c : UInt16} (h : f d = some c) :
    IsJsonUnit d := by
  by_cases hd : 0x20 ≤ d
  · exact Or.inl hd
  · have hlt : d.toNat < 0x20 := UInt16.lt_iff_toNat_lt.mp (UInt16.not_le.mp hd)
    have hnone := hf d.toNat hlt
    rw [UInt16.ofNat_toNat, h] at hnone
    cases hnone

theorem isJsonUnit_of_mapM_hexDigit {digits values : List UInt16}
    (h : digits.mapM hexDigit = some values) : ∀ d ∈ digits, IsJsonUnit d := by
  induction digits generalizing values with
  | nil => exact fun d hd => nomatch hd
  | cons d digits ih =>
    rw [List.mapM_cons] at h
    obtain ⟨value, hd, h⟩ := Option.bind_eq_some_iff.mp h
    obtain ⟨rest, hdigits, -⟩ := Option.bind_eq_some_iff.mp h
    exact List.forall_mem_cons.mpr ⟨isJsonUnit_of_eq_some (by decide) hd, ih hdigits⟩

theorem Chars.isJsonUnit {raw : List UInt16} (h : Chars raw t) : ∀ c ∈ raw, IsJsonUnit c := by
  induction h with
  | nil => exact fun c hc => nomatch hc
  | unescaped hc hquote hbackslash h ih => exact List.forall_mem_cons.mpr ⟨Or.inl hc, ih⟩
  | escaped he h ih =>
    exact List.forall_mem_cons.mpr ⟨by decide,
      List.forall_mem_cons.mpr ⟨isJsonUnit_of_eq_some (by decide) he, ih⟩⟩
  | hex hfour hdigits h ih =>
    obtain ⟨values, hvalues, -⟩ := Option.map_eq_some_iff.mp hdigits
    exact List.forall_mem_cons.mpr ⟨by decide, List.forall_mem_cons.mpr ⟨by decide,
      List.forall_mem_append.mpr ⟨isJsonUnit_of_mapM_hexDigit hvalues, ih⟩⟩⟩

theorem isJsonUnit_enclosed {opening closing : UInt16} (hopening : IsJsonUnit opening)
    (hclosing : IsJsonUnit closing) (h : ∀ c ∈ s, IsJsonUnit c) :
    ∀ c ∈ opening :: s ++ [closing], IsJsonUnit c :=
  List.forall_mem_append.mpr
    ⟨List.forall_mem_cons.mpr ⟨hopening, h⟩, List.forall_mem_singleton.mpr hclosing⟩

theorem Padded.isJsonUnit (hs : Padded s b) (hb : ∀ c ∈ b, IsJsonUnit c) :
    ∀ c ∈ s, IsJsonUnit c := by
  obtain ⟨w, w', hw, hw', rfl⟩ := hs
  intro c hc
  rcases List.mem_append.mp hc with hc | hc
  · rcases List.mem_append.mp hc with hc | hc
    · exact Or.inr (hw c hc)
    · exact hb c hc
  · exact Or.inr (hw' c hc)

theorem isJsonUnit_of_derives (h : Derives s p) : ∀ c ∈ s, IsJsonUnit c := by
  have hquoted : ∀ {raw t : List UInt16}, Chars raw t →
      ∀ c ∈ quote :: raw ++ [quote], IsJsonUnit c :=
    fun h => isJsonUnit_enclosed (by decide) (by decide) h.isJsonUnit
  induction h with
  | null => exact forall_mem_of_all (by decide)
  | true => exact forall_mem_of_all (by decide)
  | false => exact forall_mem_of_all (by decide)
  | number h => exact fun c hc => isJsonUnit_of_isWord (isWord_of_mem_numeral h c hc)
  | string h => exact hquoted h
  | emptyArray hw =>
    exact isJsonUnit_enclosed (by decide) (by decide) fun c hc => Or.inr (hw c hc)
  | array h ih => exact isJsonUnit_enclosed (by decide) (by decide) ih
  | emptyObject hw =>
    exact isJsonUnit_enclosed (by decide) (by decide) fun c hc => Or.inr (hw c hc)
  | object h ih => exact isJsonUnit_enclosed (by decide) (by decide) ih
  | element hs h ih => exact hs.isJsonUnit ih
  | elements hs h hrest ih ihRest =>
    simp only [List.forall_mem_append, List.forall_mem_cons]
    exact ⟨hs.isJsonUnit ih, by decide, ihRest⟩
  | member hk hname hs h ih =>
    simp only [List.forall_mem_append, List.forall_mem_cons]
    exact ⟨hk.isJsonUnit (hquoted hname), by decide, hs.isJsonUnit ih⟩
  | members hk hname hs h hrest ih ihRest =>
    simp only [List.forall_mem_append, List.forall_mem_cons]
    exact ⟨⟨hk.isJsonUnit (hquoted hname), by decide, hs.isJsonUnit ih⟩, by decide, ihRest⟩

/-- **The units of a text.** -/
theorem IsText.isJsonUnit (h : IsText s v) : ∀ c ∈ s, IsJsonUnit c := by
  obtain ⟨b, hs, hb⟩ := h
  exact hs.isJsonUnit (isJsonUnit_of_derives hb)

end Json

end Kaede.Infra
