import Kaede.Data.MemoryRepository
import Kaede.Infra.Machine

/-!
# Coroutines on the `memories` table

Any number of coroutines call the repository. Each SQL statement is one step, so a step of one
coroutine can fall between two statements of another. Only `cleanupOldMemories` has more than one.

* `Housekeeping.machine` — the table and the running cleanups, one statement at a time
* `primaryKey_of_run` — the primary key holds in every run
* `run_cleanup` — a cleanup that nobody disturbs is `MemoryRepository.cleanupOldMemories`
-/

namespace Kaede

open Infra

/-- The statement that a call of `cleanupOldMemories` issues next. -/
inductive CleanupStage where
  | counting
  | trimming
  | aging
  | finished
deriving DecidableEq, Repr

structure Housekeeping where
  table : MemoryTable
  /-- The calls of `cleanupOldMemories` so far, in the order they were made. -/
  cleanups : List CleanupStage
deriving DecidableEq, Repr

namespace Housekeeping

/-! ## Steps -/

inductive Event where
  /-- The insert of a `saveMemory` that read the clock at `now`. -/
  | saveMemory (now : Int) (content : Text) (importanceScore : Int) (type : MemoryType)
    (associatedMood : Text)
  | saveMemories (memories : List MemoryEntity)
  | updateMemory (memory : MemoryEntity)
  | deleteMemory (memory : MemoryEntity)
  | deleteMemoryById (id : Int)
  | markMemoryAsPermanent (id : Int)
  | incrementAccessCount (id : Int)
  | clearAllMemories
  /-- `cleanupOldMemories()` is called. -/
  | cleanupOldMemories
  /-- The `i`-th cleanup issues its next statement. Only the last one reads the clock, and only
  the guarded one sorts. -/
  | cleanup (i : Nat) (now : Int64) (sorter : Sorter MemoryEntity.importanceScore)

/-- The next statement of a cleanup, and what it issues after that. -/
def cleanupStep (now : Int64) (sorter : Sorter MemoryEntity.importanceScore)
    (table : MemoryTable) : CleanupStage → Option (MemoryTable × CleanupStage)
  | .counting => some (table, if 1000 < MemoryDao.getMemoryCount table then .trimming else .aging)
  | .trimming => some (MemoryDao.deleteLowImportanceMemories 2 100 sorter table, .aging)
  | .aging =>
    some (MemoryDao.deleteOldMemories (MemoryRepository.thirtyDaysAgo now).toInt table, .finished)
  | .finished => none

/-- What an event does to the table, the statements of the cleanups apart. -/
def Event.statement : Event → MemoryTable → MemoryTable
  | .saveMemory now content importanceScore type associatedMood =>
    MemoryRepository.saveMemory
      (MemoryRepository.memoryToSave now content importanceScore type associatedMood)
  | .saveMemories memories => MemoryRepository.saveMemories memories
  | .updateMemory memory => MemoryRepository.updateMemory memory
  | .deleteMemory memory => MemoryRepository.deleteMemory memory
  | .deleteMemoryById id => MemoryRepository.deleteMemoryById id
  | .markMemoryAsPermanent id => MemoryRepository.markMemoryAsPermanent id
  | .incrementAccessCount id => MemoryRepository.incrementAccessCount id
  | .clearAllMemories => MemoryRepository.clearAllMemories
  | .cleanupOldMemories => id
  | .cleanup _ _ _ => id

def step (s : Housekeeping) : Event → Option Housekeeping
  | .cleanupOldMemories => some { s with cleanups := s.cleanups ++ [.counting] }
  | .cleanup i now sorter =>
    (s.cleanups[i]?).bind fun stage =>
      (cleanupStep now sorter s.table stage).map fun next =>
        { table := next.1, cleanups := s.cleanups.set i next.2 }
  | event => some { s with table := event.statement s.table }

def machine : Machine Housekeeping Event := ⟨step⟩

variable {s t : Housekeeping} {e : Event} {es : List Event}

/-- Every step is one statement on the table. -/
theorem table_of_step (h : step s e = some t) :
    t.table = e.statement s.table ∨
      ∃ now sorter stage next, cleanupStep now sorter s.table stage = some next ∧
        t.table = next.1 := by
  cases e with
  | cleanup i now sorter =>
    obtain ⟨stage, _, hnext⟩ := Option.bind_eq_some_iff.mp h
    obtain ⟨next, hstep, rfl⟩ := Option.map_eq_some_iff.mp hnext
    exact Or.inr ⟨now, sorter, stage, next, hstep, rfl⟩
  | cleanupOldMemories =>
    cases h
    exact Or.inl rfl
  | saveMemory => cases h; exact Or.inl rfl
  | saveMemories => cases h; exact Or.inl rfl
  | updateMemory => cases h; exact Or.inl rfl
  | deleteMemory => cases h; exact Or.inl rfl
  | deleteMemoryById => cases h; exact Or.inl rfl
  | markMemoryAsPermanent => cases h; exact Or.inl rfl
  | incrementAccessCount => cases h; exact Or.inl rfl
  | clearAllMemories => cases h; exact Or.inl rfl

/-! ## What a cleanup deletes -/

/-- A cleanup only deletes, and only rows that are not permanent. -/
theorem cleanupStep_deletes {now : Int64} {sorter : Sorter MemoryEntity.importanceScore}
    {table : MemoryTable} {stage : CleanupStage} {next : MemoryTable × CleanupStage}
    (hkey : table.PrimaryKey) (h : cleanupStep now sorter table stage = some next) :
    ∃ p, next.1 = MemoryDao.deleteWhere p table ∧
      ∀ row ∈ table.rows, p row = true → row.isPermanent = false := by
  cases stage with
  | counting =>
    cases h
    exact ⟨fun _ => false, by simp [MemoryDao.deleteWhere], by simp⟩
  | trimming =>
    cases h
    exact ⟨_, rfl, fun row hrow hp => MemoryDao.not_permanent_of_lowImportance hkey hrow hp⟩
  | aging =>
    cases h
    exact ⟨_, rfl, fun row _ hp => by simpa using (Bool.and_eq_true_iff.mp hp).2⟩
  | finished => cases h

/-! ## The primary key -/

theorem primaryKey_statement {table : MemoryTable} (h : table.PrimaryKey) (e : Event) :
    (e.statement table).PrimaryKey := by
  cases e with
  | saveMemory => exact h.insertMemory _
  | saveMemories memories => exact h.insertMemories memories
  | updateMemory memory => exact h.updateMemory memory
  | deleteMemory memory => exact h.deleteWhere _
  | deleteMemoryById id => exact h.deleteWhere _
  | markMemoryAsPermanent id => exact h.markAsPermanent id
  | incrementAccessCount id => exact h.incrementAccessCount id
  | clearAllMemories => exact h.deleteWhere _
  | cleanupOldMemories => exact h
  | cleanup => exact h

theorem primaryKey_of_step (hkey : s.table.PrimaryKey) (h : step s e = some t) :
    t.table.PrimaryKey := by
  rcases table_of_step h with heq | ⟨now, sorter, stage, next, hnext, heq⟩
  · rw [heq]
    exact primaryKey_statement hkey e
  · obtain ⟨p, hdelete, _⟩ := cleanupStep_deletes hkey hnext
    rw [heq, hdelete]
    exact hkey.deleteWhere p

/-- **Ids stay distinct, and generated ids new, in every run.** -/
theorem primaryKey_of_run (hkey : s.table.PrimaryKey) (h : machine.run s es = some t) :
    t.table.PrimaryKey :=
  machine.run_invariant (fun _ _ _ hkey h => primaryKey_of_step hkey h) hkey h

/-! ## A cleanup that nobody disturbs -/

/-- The steps of one more call of `cleanupOldMemories`, with nothing in between. -/
def cleanupSteps (now : Int64) (sorter : Sorter MemoryEntity.importanceScore)
    (s : Housekeeping) : List Event :=
  .cleanupOldMemories ::
    List.replicate (if 1000 < MemoryDao.getMemoryCount s.table then 3 else 2)
      (.cleanup s.cleanups.length now sorter)

/-- **The steps of one call are `MemoryRepository.cleanupOldMemories`.** -/
theorem run_cleanup (now : Int64) (sorter : Sorter MemoryEntity.importanceScore)
    (s : Housekeeping) :
    machine.run s (cleanupSteps now sorter s) =
      some { table := MemoryRepository.cleanupOldMemories now sorter s.table,
             cleanups := s.cleanups ++ [.finished] } := by
  unfold cleanupSteps MemoryRepository.cleanupOldMemories
  by_cases hmany : 1000 < MemoryDao.getMemoryCount s.table
  · simp [hmany, machine, Machine.run_cons, step, cleanupStep, List.replicate]
  · simp [hmany, machine, Machine.run_cons, step, cleanupStep, List.replicate]

end Housekeeping

end Kaede
