import Kaede.Data.Housekeeping

/-!
# The range of the stored importances

`saveMemory` coerces its importance into the documented range. `saveMemories` and `updateMemory`
store what they are given.

* `inRange_insertMemories_iff` — what a list of rows must be like for the table to be in range after it
* `inRange_iff` — every table of a run is in range exactly when every statement keeps the range
-/

namespace Kaede

open Infra

/-- The documented range of an importance score. -/
def MemoryEntity.InRange (memory : MemoryEntity) : Prop :=
  0 ≤ memory.importanceScore ∧ memory.importanceScore ≤ 10

instance (memory : MemoryEntity) : Decidable memory.InRange :=
  inferInstanceAs (Decidable (0 ≤ memory.importanceScore ∧ memory.importanceScore ≤ 10))

namespace MemoryTable

variable {table : MemoryTable}

def InRange (table : MemoryTable) : Prop := ∀ row ∈ table.rows, row.InRange

/-- No row has the id that asks for a generated one. -/
structure Keyed (table : MemoryTable) : Prop where
  ne_zero : ∀ row ∈ table.rows, row.id ≠ 0
  lastId_nonneg : 0 ≤ table.lastId

theorem Keyed.deleteWhere (h : table.Keyed) (p : MemoryEntity → Bool) :
    (MemoryDao.deleteWhere p table).Keyed where
  ne_zero := fun row hrow => h.ne_zero row (List.mem_filter.mp hrow).1
  lastId_nonneg := h.lastId_nonneg

theorem InRange.deleteWhere (h : table.InRange) (p : MemoryEntity → Bool) :
    (MemoryDao.deleteWhere p table).InRange :=
  fun row hrow => h row (List.mem_filter.mp hrow).1

theorem Keyed.updateWhere (h : table.Keyed) {p : MemoryEntity → Bool}
    {set : MemoryEntity → MemoryEntity} (hset : ∀ row, p row = true → (set row).id = row.id) :
    (MemoryDao.updateWhere p set table).Keyed where
  ne_zero := by
    intro row hrow
    obtain ⟨old, hold, rfl⟩ := List.mem_map.mp hrow
    split
    · next hp => exact hset old hp ▸ h.ne_zero old hold
    · exact h.ne_zero old hold
  lastId_nonneg := h.lastId_nonneg

/-- After an update, a table that was in range still is exactly when the new rows are. -/
theorem InRange.updateWhere_iff (h : table.InRange) {p : MemoryEntity → Bool}
    {set : MemoryEntity → MemoryEntity} :
    (MemoryDao.updateWhere p set table).InRange ↔
      ∀ row ∈ table.rows, p row = true → (set row).InRange := by
  unfold InRange MemoryDao.updateWhere
  rw [List.forall_mem_map]
  refine forall₂_congr fun row hrow => ?_
  by_cases hp : p row = true
  · simp [hp]
  · simp [hp, h row hrow]

end MemoryTable

/-! ## Inserting -/

namespace MemoryDao

variable {table : MemoryTable} {memory : MemoryEntity}

/-- The id under which a row is stored. -/
def storedId (lastId : Int) (memory : MemoryEntity) : Int :=
  if memory.id = 0 then lastId + 1 else memory.id

theorem storedId_ne_zero {lastId : Int} (h : 0 ≤ lastId) : storedId lastId memory ≠ 0 := by
  unfold storedId
  split
  · omega
  · next hid => exact hid

/-- An insert replaces the row with the same id. A generated id replaces nothing. -/
theorem insertMemory_eq (h : table.Keyed) (memory : MemoryEntity) :
    (insertMemory memory table).2 =
      { rows := table.rows.filter (fun row => row.id ≠ memory.id) ++
          [{ memory with id := storedId table.lastId memory }],
        lastId := max table.lastId (storedId table.lastId memory) } := by
  unfold insertMemory storedId
  split
  · next hid =>
    have hall : table.rows.filter (fun row => row.id ≠ memory.id) = table.rows := by
      refine List.filter_eq_self.mpr fun row hrow => decide_eq_true ?_
      rw [hid]
      exact h.ne_zero row hrow
    rw [hall, max_eq_right (by omega)]
  · rfl

theorem insertMemories_cons (memory : MemoryEntity) (memories : List MemoryEntity)
    (table : MemoryTable) :
    (insertMemories (memory :: memories) table).2 =
      (insertMemories memories (insertMemory memory table).2).2 := rfl

theorem keyed_insertMemory (h : table.Keyed) (memory : MemoryEntity) :
    (insertMemory memory table).2.Keyed := by
  rw [insertMemory_eq h]
  refine ⟨fun row hrow => ?_, h.lastId_nonneg.trans (le_max_left _ _)⟩
  rcases List.mem_append.mp hrow with hold | hnew
  · exact h.ne_zero row (List.mem_filter.mp hold).1
  · rw [List.mem_singleton.mp hnew]
    exact storedId_ne_zero h.lastId_nonneg

theorem keyed_insertMemories (h : table.Keyed) (memories : List MemoryEntity) :
    (insertMemories memories table).2.Keyed := by
  induction memories generalizing table with
  | nil => exact h
  | cons memory memories ih => exact ih (keyed_insertMemory h memory)

/-- Every row of the list is in range, or a later row of the list has the id that it is stored
under. -/
def SavesInRange : Int → List MemoryEntity → Prop
  | _, [] => True
  | lastId, memory :: memories =>
    (memory.InRange ∨ ∃ later ∈ memories, later.id = storedId lastId memory) ∧
      SavesInRange (max lastId (storedId lastId memory)) memories

instance decidableSavesInRange : ∀ lastId memories, Decidable (SavesInRange lastId memories)
  | _, [] => .isTrue trivial
  | lastId, memory :: memories =>
    have := decidableSavesInRange (max lastId (storedId lastId memory)) memories
    inferInstanceAs (Decidable ((memory.InRange ∨
      ∃ later ∈ memories, later.id = storedId lastId memory) ∧
        SavesInRange (max lastId (storedId lastId memory)) memories))

/-- A table is in range after the inserts exactly when every row that is still there is: the old rows
that no new one replaces, and the new rows that no later one replaces. -/
theorem inRange_insertMemories_iff (h : table.Keyed) (memories : List MemoryEntity) :
    (insertMemories memories table).2.InRange ↔
      (∀ row ∈ table.rows, row.InRange ∨ ∃ later ∈ memories, later.id = row.id) ∧
        SavesInRange table.lastId memories := by
  induction memories generalizing table with
  | nil => simp [insertMemories, MemoryTable.InRange, SavesInRange]
  | cons memory memories ih =>
    have hnext := ih (keyed_insertMemory h memory)
    rw [insertMemory_eq h] at hnext
    rw [insertMemories_cons, insertMemory_eq h]
    refine hnext.trans ?_
    rw [List.forall_mem_append, List.forall_mem_singleton, SavesInRange, and_assoc]
    refine and_congr ?_ Iff.rfl
    constructor
    · intro hold row hrow
      by_cases hid : row.id = memory.id
      · exact Or.inr ⟨memory, List.mem_cons_self, hid.symm⟩
      · refine (hold row (List.mem_filter.mpr ⟨hrow, decide_eq_true hid⟩)).imp_right ?_
        rintro ⟨later, hlater, hsame⟩
        exact ⟨later, List.mem_cons_of_mem _ hlater, hsame⟩
    · intro hall row hrow
      obtain ⟨hrow, hid⟩ := List.mem_filter.mp hrow
      refine (hall row hrow).imp_right ?_
      rintro ⟨later, hlater, hsame⟩
      rcases List.mem_cons.mp hlater with rfl | hlater
      · exact absurd hsame.symm (of_decide_eq_true hid)
      · exact ⟨later, hlater, hsame⟩

end MemoryDao

/-! ## One statement -/

namespace Housekeeping

variable {s t : Housekeeping} {e : Event} {es : List Event} {table : MemoryTable}

/-- The statement stores no importance outside the range. A row of a list that a later one replaces
at once does not count. -/
def KeepsRange (table : MemoryTable) : Event → Prop
  | .saveMemories memories => MemoryDao.SavesInRange table.lastId memories
  | .updateMemory memory => memory.InRange ∨ ∀ row ∈ table.rows, row.id ≠ memory.id
  | _ => True

instance (table : MemoryTable) : ∀ e, Decidable (KeepsRange table e)
  | .saveMemories memories =>
    inferInstanceAs (Decidable (MemoryDao.SavesInRange table.lastId memories))
  | .updateMemory memory =>
    inferInstanceAs (Decidable (memory.InRange ∨ ∀ row ∈ table.rows, row.id ≠ memory.id))
  | .saveMemory .. => .isTrue trivial
  | .deleteMemory _ => .isTrue trivial
  | .deleteMemoryById _ => .isTrue trivial
  | .markMemoryAsPermanent _ => .isTrue trivial
  | .incrementAccessCount _ => .isTrue trivial
  | .clearAllMemories => .isTrue trivial
  | .cleanupOldMemories => .isTrue trivial
  | .cleanup .. => .isTrue trivial

theorem memoryToSave_inRange (now : Int) (content : Text) (importanceScore : Int)
    (type : MemoryType) (associatedMood : Text) :
    (MemoryRepository.memoryToSave now content importanceScore type associatedMood).InRange := by
  unfold MemoryEntity.InRange MemoryRepository.memoryToSave
  dsimp only
  omega

theorem keyed_statement (h : table.Keyed) (e : Event) : (e.statement table).Keyed := by
  cases e with
  | saveMemory => exact MemoryDao.keyed_insertMemory h _
  | saveMemories memories => exact MemoryDao.keyed_insertMemories h memories
  | updateMemory memory => exact h.updateWhere fun row hp => (beq_iff_eq.mp hp).symm
  | deleteMemory memory => exact h.deleteWhere _
  | deleteMemoryById id => exact h.deleteWhere _
  | markMemoryAsPermanent id => exact h.updateWhere fun _ _ => rfl
  | incrementAccessCount id => exact h.updateWhere fun _ _ => rfl
  | clearAllMemories => exact h.deleteWhere _
  | cleanupOldMemories => exact h
  | cleanup => exact h

theorem inRange_saveMemory (hkeyed : table.Keyed) (h : table.InRange) {memory : MemoryEntity}
    (hmemory : memory.InRange) : (MemoryRepository.saveMemory memory table).InRange := by
  rw [MemoryRepository.saveMemory, MemoryDao.insertMemory_eq hkeyed]
  intro row hrow
  rcases List.mem_append.mp hrow with hold | hnew
  · exact h row (List.mem_filter.mp hold).1
  · rw [List.mem_singleton.mp hnew]
    exact hmemory

/-- Only `saveMemories` and `updateMemory` can leave the range. -/
theorem inRange_statement_iff (hkeyed : table.Keyed) (h : table.InRange) (e : Event) :
    (e.statement table).InRange ↔ KeepsRange table e := by
  cases e with
  | saveMemory now content importanceScore type associatedMood =>
    refine iff_of_true (inRange_saveMemory hkeyed h ?_) trivial
    exact memoryToSave_inRange now content importanceScore type associatedMood
  | saveMemories memories =>
    refine (MemoryDao.inRange_insertMemories_iff hkeyed memories).trans ?_
    exact and_iff_right fun row hrow => Or.inl (h row hrow)
  | updateMemory memory =>
    refine h.updateWhere_iff.trans ?_
    simp only [KeepsRange, beq_iff_eq]
    constructor
    · intro hall
      by_cases hmemory : memory.InRange
      · exact Or.inl hmemory
      · exact Or.inr fun row hrow hid => hmemory (hall row hrow hid)
    · rintro (hmemory | hnone) row hrow hid
      · exact hmemory
      · exact absurd hid (hnone row hrow)
  | markMemoryAsPermanent id =>
    exact iff_of_true (h.updateWhere_iff.mpr fun row hrow _ => h row hrow) trivial
  | incrementAccessCount id =>
    exact iff_of_true (h.updateWhere_iff.mpr fun row hrow _ => h row hrow) trivial
  | deleteMemory memory => exact iff_of_true (h.deleteWhere _) trivial
  | deleteMemoryById id => exact iff_of_true (h.deleteWhere _) trivial
  | clearAllMemories => exact iff_of_true (h.deleteWhere _) trivial
  | cleanupOldMemories => exact iff_of_true h trivial
  | cleanup => exact iff_of_true h trivial

/-- The statements of a cleanup only delete. -/
theorem cleanupStep_deleteWhere {now : Int64} {sorter : Sorter MemoryEntity.importanceScore}
    {stage : CleanupStage} {next : MemoryTable × CleanupStage}
    (h : cleanupStep now sorter table stage = some next) :
    ∃ p, next.1 = MemoryDao.deleteWhere p table := by
  cases stage with
  | counting =>
    cases h
    exact ⟨fun _ => false, by simp [MemoryDao.deleteWhere]⟩
  | trimming => cases h; exact ⟨_, rfl⟩
  | aging => cases h; exact ⟨_, rfl⟩
  | finished => cases h

theorem keyed_of_step (h : s.table.Keyed) (hstep : step s e = some t) : t.table.Keyed := by
  rcases table_of_step hstep with heq | ⟨now, sorter, stage, next, hnext, heq⟩
  · rw [heq]
    exact keyed_statement h e
  · obtain ⟨p, hdelete⟩ := cleanupStep_deleteWhere hnext
    rw [heq, hdelete]
    exact h.deleteWhere p

/-- One step: the table stays in range exactly when the statement keeps the range. -/
theorem inRange_iff_of_step (hkeyed : s.table.Keyed) (h : s.table.InRange)
    (hstep : step s e = some t) : t.table.InRange ↔ KeepsRange s.table e := by
  cases e with
  | cleanup i now sorter =>
    obtain ⟨stage, _, hnext⟩ := Option.bind_eq_some_iff.mp hstep
    obtain ⟨next, hcleanup, rfl⟩ := Option.map_eq_some_iff.mp hnext
    obtain ⟨p, hdelete⟩ := cleanupStep_deleteWhere hcleanup
    rw [hdelete]
    exact iff_of_true (h.deleteWhere p) trivial
  | cleanupOldMemories =>
    cases hstep
    exact iff_of_true h trivial
  | _ =>
    cases hstep
    exact inRange_statement_iff hkeyed h _

/-! ## Runs -/

/-- No rows, no cleanups. -/
def empty : Housekeeping := { table := { rows := [], lastId := 0 }, cleanups := [] }

theorem keyed_of_run (h : machine.run empty es = some s) : s.table.Keyed :=
  machine.run_invariant (I := fun s => s.table.Keyed) (fun _ _ _ hkeyed h => keyed_of_step hkeyed h)
    ⟨by simp [empty], le_rfl⟩ h

/--
**Every table of a run is in range exactly when every statement keeps the range.**

The statements that can break it are an update of a row that exists with an importance outside the
range, and a list with such a row that no later row of the list replaces.
-/
theorem inRange_iff (hrun : machine.run empty es = some t) :
    (∀ xs ys u, es = xs ++ ys → machine.run empty xs = some u → u.table.InRange) ↔
      machine.Along (fun s e => KeepsRange s.table e) empty es := by
  constructor
  · intro h
    rw [Machine.along_iff_prefix]
    rintro xs e ys u rfl hu
    obtain ⟨v, hstep, -⟩ := machine.step_of_run hrun hu
    have hnext : v.table.InRange :=
      h (xs ++ [e]) ys v (by simp) (machine.run_concat hu hstep)
    exact (inRange_iff_of_step (keyed_of_run hu) (h xs (e :: ys) u rfl hu) hstep).mp hnext
  · rintro h xs ys u rfl hu
    have hboth := machine.run_invariant_along
      (I := fun s => s.table.Keyed ∧ s.table.InRange)
      (fun s e t ⟨hkeyed, hrange⟩ hkeeps hstep =>
        ⟨keyed_of_step hkeyed hstep, (inRange_iff_of_step hkeyed hrange hstep).mpr hkeeps⟩)
      (Machine.along_append.mp h).1 ⟨⟨by simp [empty], le_rfl⟩, by simp [empty, MemoryTable.InRange]⟩
      hu
    exact hboth.2

/-! ### Two rows and their replacement -/

/-- A row that asks for this id. -/
def scored (id importanceScore : Int) : MemoryEntity :=
  { id := id, content := [], importanceScore := importanceScore, timestamp := 0,
    associatedMood := [] }

/-- The row with the importance 100 gets the id `1`, and the next row of the list replaces it. -/
def replacedAtOnce : List Event :=
  [.saveMemories [scored 0 100, scored 1 5], .updateMemory (scored 2 100),
    .markMemoryAsPermanent 1]

theorem inRange_iff_replacedAtOnce :
    ∃ t, machine.run empty replacedAtOnce = some t ∧ t.table.InRange := by
  obtain ⟨t, hrun⟩ : ∃ t, machine.run empty replacedAtOnce = some t := ⟨_, rfl⟩
  have halong : machine.Along (fun s e => KeepsRange s.table e) empty replacedAtOnce := by decide
  exact ⟨t, hrun, (inRange_iff hrun).mpr halong replacedAtOnce [] t (by simp) hrun⟩

theorem saveMemories_out_of_range :
    ¬ ∀ (es : List Event) (t : Housekeeping), machine.run empty es = some t → t.table.InRange := by
  intro h
  have hrange := h [.saveMemories [scored 0 100]] _ rfl _ List.mem_cons_self
  exact absurd hrange (by decide)

end Housekeeping

end Kaede
