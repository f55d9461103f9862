import Kaede.Data.MemoryRepository
import Kaede.Infra.Json

/-!
# What the export of the memories says

`escapeJson` escapes the quotation mark, the backslash and three of the control units. JSON allows
none of the others inside a string.

* `chars_escapeJson_iff` — escaping can be undone exactly when the text has no other control unit
* `export_iff` — the export is lossless exactly when no memory has one in its content
-/

namespace Kaede

open Infra

/-! ## Numbers -/

theorem digitUnit_mem : ∀ d < 10, digitUnit d ∈ Json.ascii "0123456789" := by decide

theorem digitUnit_mem_of_ne_zero : ∀ d < 10, d ≠ 0 → digitUnit d ∈ Json.ascii "123456789" := by
  decide

theorem digits_mem {ds : List Nat} (h : ∀ d ∈ ds, d < 10) :
    ds.map digitUnit ∈ Json.digit.star.matches' := by
  refine Language.mem_kstar.mpr ⟨ds.map fun d => [digitUnit d], ?_, ?_⟩
  · rw [← List.flatMap_def]
    exact List.map_eq_flatMap
  · intro word hword
    obtain ⟨d, hd, rfl⟩ := List.mem_map.mp hword
    exact Json.mem_oneOf (digitUnit_mem d (h d hd))

/-- A natural number is written without leading zeros. -/
theorem natText_mem (n : Nat) :
    natText n ∈ (.char 0x30 + Json.oneOf (Json.ascii "123456789") * Json.digit.star :
      RegularExpression UInt16).matches' := by
  obtain ⟨d, hd, ds, hds, heq, hzero⟩ := natText_eq_cons n
  rw [heq]
  by_cases hd0 : d = 0
  · rw [(hzero hd0).2, hd0]
    exact Or.inl rfl
  · exact Or.inr (Language.mem_mul.mpr ⟨[digitUnit d],
      Json.mem_oneOf (digitUnit_mem_of_ne_zero d hd hd0), ds.map digitUnit, digits_mem hds, rfl⟩)

theorem intText_mem_numeral (n : Int) : intText n ∈ Json.numeral.matches' := by
  have hnil : ∀ P : RegularExpression UInt16, [] ∈ (1 + P).matches' := fun P => Or.inl rfl
  obtain ⟨sign, hsign, heq⟩ : ∃ sign ∈ ((1 + .char 0x2D : RegularExpression UInt16)).matches',
      intText n = sign ++ natText n.natAbs := by
    unfold intText
    split
    · exact ⟨[0x2D], Or.inr rfl, rfl⟩
    · exact ⟨[], hnil _, rfl⟩
  rw [heq]
  refine Language.mem_mul.mpr ⟨sign ++ natText n.natAbs, Language.mem_mul.mpr
    ⟨sign ++ natText n.natAbs, Language.mem_mul.mpr ⟨sign, hsign, _, natText_mem _, rfl⟩, [],
      hnil _, List.append_nil _⟩, [], hnil _, List.append_nil _⟩

namespace MemoryRepository

/-! ## Escaping -/

/-- The units that are escaped, with what follows the backslash. -/
def escapes : List (CodeUnit × CodeUnit) :=
  [(0x5C, 0x5C), (0x22, 0x22), (0x0A, 0x6E), (0x0D, 0x72), (0x09, 0x74)]

theorem replaceUnit_of_ne {c old : CodeUnit} (h : c ≠ old) (new : Text) :
    replaceUnit old new [c] = [c] := by
  rw [replaceUnit, List.flatMap_singleton, if_neg h]

theorem escapeJson_append (s t : Text) : escapeJson (s ++ t) = escapeJson s ++ escapeJson t := by
  simp only [escapeJson, replaceUnit, List.flatMap_append]

/-- No replacement touches what an earlier one has put in. -/
theorem escapeJson_of_mem : ∀ e ∈ escapes, escapeJson [e.1] = [0x5C, e.2] :=
  forall_mem_of_all (by decide)

theorem escapeJson_of_not_mem {c : CodeUnit} (h : ∀ e ∈ escapes, c ≠ e.1) :
    escapeJson [c] = [c] := by
  simp only [escapes, List.forall_mem_cons] at h
  obtain ⟨hbackslash, hquote, hbreak, hreturn, htab, -⟩ := h
  simp only [escapeJson, replaceUnit_of_ne hbackslash, replaceUnit_of_ne hquote,
    replaceUnit_of_ne hbreak, replaceUnit_of_ne hreturn, replaceUnit_of_ne htab]

/-- A unit is escaped or left alone. -/
theorem escapeJson_cases (c : CodeUnit) :
    (∃ e, (c, e) ∈ escapes ∧ escapeJson [c] = [0x5C, e]) ∨
      ((∀ e ∈ escapes, c ≠ e.1) ∧ escapeJson [c] = [c]) := by
  by_cases h : ∃ e ∈ escapes, c = e.1
  · obtain ⟨e, he, rfl⟩ := h
    exact Or.inl ⟨e.2, he, escapeJson_of_mem e he⟩
  · have hne : ∀ e ∈ escapes, c ≠ e.1 := fun e he heq => h ⟨e, he, heq⟩
    exact Or.inr ⟨hne, escapeJson_of_not_mem hne⟩

theorem escapeJson_cons (c : CodeUnit) (s : Text) :
    escapeJson (c :: s) = escapeJson [c] ++ escapeJson s := by
  rw [← escapeJson_append, List.singleton_append]

/-! ## Undoing it -/

/-- The text has no control unit, except line breaks, carriage returns and tabs. -/
def Clean (text : Text) : Prop :=
  ∀ c ∈ text, c < 0x20 → c = 0x0A ∨ c = 0x0D ∨ c = 0x09

instance (text : Text) : Decidable (Clean text) :=
  List.decidableBAll (fun c => c < 0x20 → c = 0x0A ∨ c = 0x0D ∨ c = 0x09) text

/-- JSON understands each of the escapes. -/
theorem unescape_of_mem : ∀ e ∈ escapes, Json.unescape e.2 = some e.1 :=
  forall_mem_of_all (by decide)

theorem chars_escapeJson {text : Text} (h : Clean text) : Json.Chars (escapeJson text) text := by
  induction text with
  | nil => exact .nil
  | cons c text ih =>
    obtain ⟨hc, htext⟩ := List.forall_mem_cons.mp h
    rw [escapeJson_cons]
    rcases escapeJson_cases c with ⟨e, he, heq⟩ | ⟨hne, heq⟩
    · rw [heq]
      exact .escaped (unescape_of_mem _ he) (ih htext)
    · rw [heq]
      simp only [escapes, List.forall_mem_cons] at hne
      obtain ⟨hbackslash, hquote, hbreak, hreturn, htab, -⟩ := hne
      refine .unescaped (UInt16.not_lt.mp fun hlt => ?_) hquote hbackslash (ih htext)
      rcases hc hlt with h | h | h
      · exact hbreak h
      · exact hreturn h
      · exact htab h

/-- A control unit that is not escaped is still there. -/
theorem clean_of_forall_isJsonUnit {text : Text}
    (h : ∀ c ∈ escapeJson text, Json.IsJsonUnit c) : Clean text := by
  induction text with
  | nil => exact fun c hc => nomatch hc
  | cons c text ih =>
    rw [escapeJson_cons, List.forall_mem_append] at h
    refine List.forall_mem_cons.mpr ⟨fun hlt => ?_, ih h.2⟩
    have hescaped : ∀ e ∈ escapes, e.1 < 0x20 → e.1 = 0x0A ∨ e.1 = 0x0D ∨ e.1 = 0x09 :=
      forall_mem_of_all (by decide)
    rcases escapeJson_cases c with ⟨e, he, -⟩ | ⟨-, heq⟩
    · exact hescaped _ he hlt
    · rw [heq, List.forall_mem_singleton] at h
      rcases h.1 with hle | hws
      · exact absurd hlt (UInt16.not_lt.mpr hle)
      · simp only [Json.isWs, Bool.or_eq_true, beq_iff_eq] at hws
        rcases hws with ((rfl | rfl) | rfl) | rfl
        · exact absurd hlt (by decide)
        · exact Or.inr (Or.inr rfl)
        · exact Or.inl rfl
        · exact Or.inr (Or.inl rfl)

/-- **Escaping can be undone exactly in a clean text.** -/
theorem chars_escapeJson_iff (text : Text) :
    (∀ decoded, Json.Chars (escapeJson text) decoded ↔ decoded = text) ↔ Clean text := by
  constructor
  · intro h
    exact clean_of_forall_isJsonUnit ((h text).mpr rfl).isJsonUnit
  · intro hclean decoded
    constructor
    · intro h
      have hread := Json.readChars_append h []
      rw [Json.readChars_append (chars_escapeJson hclean) []] at hread
      cases hread
      rfl
    · rintro rfl
      exact chars_escapeJson hclean

/-! ## One memory -/

/-- What the object of a memory denotes. -/
def memoryObject (memory : MemoryEntity) : Json :=
  .object [(Json.ascii "id", .number (intText memory.id)),
    (Json.ascii "content", .string memory.content),
    (Json.ascii "importance", .number (intText memory.importanceScore)),
    (Json.ascii "type", .string memory.memoryType.name)]

/-- The id, the content, the importance and the type that an object gives. -/
def readMemory (v : Json) : Option (Int × Text × Int × Text) :=
  match v.member? (Json.ascii "id"), v.member? (Json.ascii "content"),
    v.member? (Json.ascii "importance"), v.member? (Json.ascii "type") with
  | some (.number id), some (.string content), some (.number importance), some (.string type) =>
    (readInt id).bind fun id =>
      (readInt importance).map fun importance => (id, content, importance, type)
  | _, _, _, _ => none

theorem readMemory_memoryObject (memory : MemoryEntity) :
    readMemory (memoryObject memory) =
      some (memory.id, memory.content, memory.importanceScore, memory.memoryType.name) := by
  have hid : (memoryObject memory).member? (Json.ascii "id") =
      some (.number (intText memory.id)) := rfl
  have hcontent : (memoryObject memory).member? (Json.ascii "content") =
      some (.string memory.content) := rfl
  have himportance : (memoryObject memory).member? (Json.ascii "importance") =
      some (.number (intText memory.importanceScore)) := rfl
  have htype : (memoryObject memory).member? (Json.ascii "type") =
      some (.string memory.memoryType.name) := rfl
  rw [readMemory, hid, hcontent, himportance, htype]
  dsimp only
  rw [readInt_intText, readInt_intText]
  rfl

theorem chars_name (type : MemoryType) : Json.Chars type.name type.name := by
  cases type <;> exact Json.Chars.self (forall_mem_of_all (by decide))

/-- The members of the object, as they are written. -/
theorem exportMemory_eq (memory : MemoryEntity) :
    exportMemory memory =
      Json.openBrace :: ((Json.quote :: Json.ascii "id" ++ [Json.quote]) ++ Json.colon ::
        intText memory.id ++ Json.comma ::
        ((Json.quote :: Json.ascii "content" ++ [Json.quote]) ++ Json.colon ::
        (Json.quote :: escapeJson memory.content ++ [Json.quote]) ++ Json.comma ::
        ((Json.quote :: Json.ascii "importance" ++ [Json.quote]) ++ Json.colon ::
        intText memory.importanceScore ++ Json.comma ::
        ((Json.quote :: Json.ascii "type" ++ [Json.quote]) ++ Json.colon ::
        (Json.quote :: memory.memoryType.name ++ [Json.quote]))))) ++ [Json.closeBrace] := by
  have hid : utf16 "\x7b\"id\":" =
      Json.openBrace :: Json.quote :: (Json.ascii "id" ++ [Json.quote, Json.colon]) := by decide
  have hcontent : utf16 ",\"content\":\"" = Json.comma :: Json.quote ::
      (Json.ascii "content" ++ [Json.quote, Json.colon, Json.quote]) := by decide
  have himportance : utf16 "\",\"importance\":" = Json.quote :: Json.comma :: Json.quote ::
      (Json.ascii "importance" ++ [Json.quote, Json.colon]) := by decide
  have htype : utf16 ",\"type\":\"" = Json.comma :: Json.quote ::
      (Json.ascii "type" ++ [Json.quote, Json.colon, Json.quote]) := by decide
  have hend : utf16 "\"\x7d" = [Json.quote, Json.closeBrace] := by decide
  rw [exportMemory, hid, hcontent, himportance, htype, hend]
  simp only [List.append_assoc, List.cons_append, List.nil_append]

theorem derives_exportMemory {memory : MemoryEntity} (h : Clean memory.content) :
    Json.Derives (exportMemory memory) (.value (memoryObject memory)) := by
  rw [exportMemory_eq]
  exact .object
    (.members (Json.Padded.refl _) (Json.Chars.self (forall_mem_of_all (by decide))) (Json.Padded.refl _)
      (.number (intText_mem_numeral _))
    (.members (Json.Padded.refl _) (Json.Chars.self (forall_mem_of_all (by decide))) (Json.Padded.refl _)
      (.string (chars_escapeJson h))
    (.members (Json.Padded.refl _) (Json.Chars.self (forall_mem_of_all (by decide))) (Json.Padded.refl _)
      (.number (intText_mem_numeral _))
    (.member (Json.Padded.refl _) (Json.Chars.self (forall_mem_of_all (by decide))) (Json.Padded.refl _)
      (.string (chars_name _))))))

/-! ## The array -/

/-- After the first memory, each is written behind a comma. -/
theorem foldl_export (memories : List MemoryEntity) (builder : Text) :
    memories.foldl
        (fun (builder, first) memory =>
          ((if first then builder else builder ++ utf16 ",") ++ exportMemory memory, false))
        (builder, false) =
      (builder ++ memories.flatMap fun memory => Json.comma :: exportMemory memory, false) := by
  induction memories generalizing builder with
  | nil => simp
  | cons memory memories ih =>
    have hcomma : utf16 "," = [Json.comma] := rfl
    rw [List.foldl_cons, List.flatMap_cons]
    refine (ih _).trans ?_
    rw [if_neg Bool.false_ne_true, hcomma]
    simp only [List.append_assoc, List.cons_append, List.nil_append]

/-- The brackets, and between them the objects with commas. -/
theorem exportMemoriesToJson_eq (table : MemoryTable) :
    exportMemoriesToJson table =
      Json.openBracket ::
        (match MemoryDao.getAllMemoriesNonFlow table with
          | [] => []
          | memory :: memories =>
            exportMemory memory ++ memories.flatMap fun memory => Json.comma :: exportMemory memory) ++
        [Json.closeBracket] := by
  unfold exportMemoriesToJson
  dsimp only
  cases MemoryDao.getAllMemoriesNonFlow table with
  | nil => rfl
  | cons memory memories =>
    rw [List.foldl_cons, if_pos rfl, foldl_export]
    simp only [List.append_assoc, List.cons_append]
    rfl

theorem derives_elements {memory : MemoryEntity} {memories : List MemoryEntity}
    (h : ∀ m ∈ memory :: memories, Clean m.content) :
    Json.Derives
      (exportMemory memory ++ memories.flatMap fun memory => Json.comma :: exportMemory memory)
      (.elements ((memory :: memories).map memoryObject)) := by
  induction memories generalizing memory with
  | nil =>
    rw [List.flatMap_nil, List.append_nil]
    exact .element (Json.Padded.refl _) (derives_exportMemory (h memory List.mem_cons_self))
  | cons next memories ih =>
    obtain ⟨hmemory, hrest⟩ := List.forall_mem_cons.mp h
    exact .elements (Json.Padded.refl _) (derives_exportMemory hmemory) (ih hrest)

theorem isText_export {table : MemoryTable} (h : ∀ memory ∈ table.rows, Clean memory.content) :
    Json.IsText (exportMemoriesToJson table)
      (.array ((MemoryDao.getAllMemoriesNonFlow table).map memoryObject)) := by
  have hall : ∀ memory ∈ MemoryDao.getAllMemoriesNonFlow table, Clean memory.content :=
    fun memory hmemory => h memory ((rankDesc_perm table.rows).mem_iff.mp hmemory)
  refine ⟨_, Json.Padded.refl _, ?_⟩
  rw [exportMemoriesToJson_eq]
  cases hmemories : MemoryDao.getAllMemoriesNonFlow table with
  | nil => exact .emptyArray (by simp)
  | cons memory memories =>
    rw [hmemories] at hall
    exact .array (derives_elements hall)

/-- Every memory's escaped content is in the export. -/
theorem mem_export {table : MemoryTable} {memory : MemoryEntity} (hmemory : memory ∈ table.rows)
    {c : CodeUnit} (hc : c ∈ escapeJson memory.content) : c ∈ exportMemoriesToJson table := by
  have hobject : c ∈ exportMemory memory := by
    unfold exportMemory
    simp only [List.mem_append]
    tauto
  have hlisted : memory ∈ MemoryDao.getAllMemoriesNonFlow table :=
    (rankDesc_perm table.rows).mem_iff.mpr hmemory
  rw [exportMemoriesToJson_eq]
  refine List.mem_append_left _ (List.mem_cons_of_mem _ ?_)
  cases hmemories : MemoryDao.getAllMemoriesNonFlow table with
  | nil =>
    rw [hmemories] at hlisted
    cases hlisted
  | cons first memories =>
    rw [hmemories] at hlisted
    rcases List.mem_cons.mp hlisted with rfl | hlater
    · exact List.mem_append_left _ hobject
    · exact List.mem_append_right _ (List.mem_flatMap.mpr
        ⟨memory, hlater, List.mem_cons_of_mem _ hobject⟩)

/-! ## The export -/

/-- The value is an array with one object for each memory, in order, with its four fields. -/
def Lists (v : Json) (memories : List MemoryEntity) : Prop :=
  ∃ objects, v = .array objects ∧
    objects.map readMemory = memories.map fun memory =>
      some (memory.id, memory.content, memory.importanceScore, memory.memoryType.name)

/-- The text is JSON, and whoever reads it finds all memories as they are. -/
def Lossless (text : Text) (memories : List MemoryEntity) : Prop :=
  (∃ v, Json.IsText text v) ∧ ∀ v, Json.IsText text v → Lists v memories

/--
**When the export is lossless.**

The export is a JSON text of all memories exactly when the contents are clean. Of a single string,
decoding undoes `escapeJson` exactly when the string is clean.
-/
theorem export_iff (table : MemoryTable) (text : Text) :
    (Lossless (exportMemoriesToJson table) (MemoryDao.getAllMemoriesNonFlow table) ↔
        ∀ memory ∈ table.rows, Clean memory.content) ∧
      ((∀ decoded, Json.Chars (escapeJson text) decoded ↔ decoded = text) ↔ Clean text) := by
  refine ⟨⟨fun h memory hmemory => ?_, fun h => ?_⟩, chars_escapeJson_iff text⟩
  · obtain ⟨⟨v, hv⟩, -⟩ := h
    exact clean_of_forall_isJsonUnit fun c hc => hv.isJsonUnit c (mem_export hmemory hc)
  · have htext := isText_export h
    refine ⟨⟨_, htext⟩, fun v hv => ?_⟩
    rw [hv.eq htext]
    refine ⟨_, rfl, ?_⟩
    rw [List.map_map]
    exact List.map_congr_left fun memory _ => readMemory_memoryObject memory

/-- One memory whose content is a backspace. -/
def backspace : MemoryTable := ⟨[{ id := 1, content := [0x08], timestamp := 0 }], 1⟩

/-- A backspace is written as it is. -/
theorem backspace_not_lossless :
    ¬ ∀ table, Lossless (exportMemoriesToJson table) (MemoryDao.getAllMemoriesNonFlow table) := by
  intro h
  obtain ⟨⟨v, hv⟩, -⟩ := h backspace
  have hunit := hv.isJsonUnit 0x08 (by decide)
  revert hunit
  decide

end MemoryRepository

end Kaede
