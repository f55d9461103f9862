import Kaede.Unicode
import Kaede.Infra.Like
import Kaede.Infra.Ranking
import Mathlib.Algebra.Order.Ring.Unbundled.Rat
import Mathlib.Data.List.Nodup
import Mathlib.Data.Prod.Lex
import Mathlib.Data.Rat.Cast.Defs

/-!
# `MemoryEntity` and `MemoryDao`

The `memories` table and the queries on it. Each query is one atomic step of the database. `ORDER BY`
keeps rows with equal keys in the order of the table, except where a statement takes a `Sorter` of its
own. The scores of the context query are computed in floating point, so the query takes a
`ContextScore`, of which the exact one is an instance.

* `PrimaryKey` — what the primary key and `AUTOINCREMENT` promise about a table
* `PrimaryKey.deleteWhere`, `PrimaryKey.updateWhere`, `PrimaryKey.insertMemory` — the three kinds
  of statements keep the promise
-/

namespace Kaede

open Infra

inductive MemoryType where
  | conversation
  | userInfo
  | emotional
  | recurring
  | fact
  | shared
deriving DecidableEq, Repr

/-- The name of the constant, which `toString()` returns. -/
def MemoryType.name : MemoryType → Text
  | .conversation => utf16 "CONVERSATION"
  | .userInfo => utf16 "USER_INFO"
  | .emotional => utf16 "EMOTIONAL"
  | .recurring => utf16 "RECURRING"
  | .fact => utf16 "FACT"
  | .shared => utf16 "SHARED"

/-- A row. The id `0` asks Room for a generated one. -/
structure MemoryEntity where
  id : Int := 0
  content : Text
  importanceScore : Int := 0
  timestamp : Int
  memoryType : MemoryType := .conversation
  associatedMood : Text := utf16 "NORMAL"
  accessCount : Int := 0
  isPermanent : Bool := false
deriving DecidableEq, Repr

/-- The table and the last id that `AUTOINCREMENT` gave out. -/
structure MemoryTable where
  rows : List MemoryEntity
  lastId : Int
deriving DecidableEq, Repr

/-- What the primary key and `AUTOINCREMENT` promise: ids differ, and a generated id is new. -/
structure MemoryTable.PrimaryKey (table : MemoryTable) : Prop where
  nodup : (table.rows.map (·.id)).Nodup
  le_lastId : ∀ row ∈ table.rows, row.id ≤ table.lastId

namespace MemoryDao

/-! ## Statements -/

/-- `DELETE FROM memories WHERE p`. -/
def deleteWhere (p : MemoryEntity → Bool) (table : MemoryTable) : MemoryTable :=
  { table with rows := table.rows.filter fun row => !p row }

/-- `UPDATE memories SET … WHERE p`. -/
def updateWhere (p : MemoryEntity → Bool) (set : MemoryEntity → MemoryEntity)
    (table : MemoryTable) : MemoryTable :=
  { table with rows := table.rows.map fun row => if p row then set row else row }

/-! ## Reading -/

/-- `SELECT * FROM memories ORDER BY timestamp DESC`. -/
def getAllMemoriesNonFlow (table : MemoryTable) : List MemoryEntity :=
  rankDesc (·.timestamp) table.rows

/-- `SELECT COUNT(*)`, read as an `Int`. -/
def getMemoryCount (table : MemoryTable) : Int32 := Int32.ofNat table.rows.length

/-! ## Inserting -/

/-- `@Insert(onConflict = REPLACE)`. Returns the id of the row. -/
def insertMemory (memory : MemoryEntity) (table : MemoryTable) : Int × MemoryTable :=
  if memory.id = 0 then
    let id := table.lastId + 1
    (id, { rows := table.rows ++ [{ memory with id := id }], lastId := id })
  else
    (memory.id,
      { rows := table.rows.filter (fun row => row.id ≠ memory.id) ++ [memory],
        lastId := max table.lastId memory.id })

/-- `@Insert(onConflict = REPLACE)` of a list: one transaction. Returns the ids of the rows. -/
def insertMemories : List MemoryEntity → MemoryTable → List Int × MemoryTable
  | [], table => ([], table)
  | memory :: memories, table =>
    let (id, table) := insertMemory memory table
    let (ids, table) := insertMemories memories table
    (id :: ids, table)

/-! ## Updating -/

/-- `@Update`: every column of the row with the id of `memory`. -/
def updateMemory (memory : MemoryEntity) (table : MemoryTable) : MemoryTable :=
  updateWhere (fun row => row.id == memory.id) (fun _ => memory) table

def incrementAccessCount (id : Int) (table : MemoryTable) : MemoryTable :=
  updateWhere (fun row => row.id == id)
    (fun row => { row with accessCount := row.accessCount + 1 }) table

def markAsPermanent (id : Int) (table : MemoryTable) : MemoryTable :=
  updateWhere (fun row => row.id == id) (fun row => { row with isPermanent := true }) table

/-! ## Searching -/

/-- What a character of a `LIKE` pattern stands for. -/
def likeSymbol (n : Nat) : PatternSymbol Nat :=
  if n = 0x25 then .anySequence else if n = 0x5F then .anyOne else .exactly n

/-- `s LIKE pattern` as it is documented. Characters are code points, and only ASCII letters have two
cases. Two limits of the implementation lie outside: `SQLITE_MAX_LIKE_PATTERN_LENGTH` of 50000 bytes,
and texts with a U+0000, where SQLite ends a string. -/
def like (s pattern : Text) : Bool :=
  matchesPattern (((codePoints pattern).map asciiLower.onCodePoint).map likeSymbol)
    ((codePoints s).map asciiLower.onCodePoint)

/-- `ORDER BY importance_score DESC, timestamp DESC`. -/
def searchKey (row : MemoryEntity) : Int ×ₗ Int := toLex (row.importanceScore, row.timestamp)

/-- `WHERE content LIKE '%' || :query || '%'`. -/
def searchMemories (query : Text) (table : MemoryTable) : List MemoryEntity :=
  rankDesc searchKey
    (table.rows.filter fun row => like row.content (utf16 "%" ++ query ++ utf16 "%"))

/-! ## The context of a prompt -/

/-- How the database computes `(importance_score * 0.6) + ((timestamp - :currentTime) / 86400000.0 * 0.4)`
from the current time, the importance and the timestamp, with whatever rounding. -/
abbrev ContextScore := Int → Int → Int → Rat

/-- Without rounding. -/
def exactScore : ContextScore := fun currentTime importanceScore timestamp =>
  (importanceScore : Rat) * (6 / 10) +
    ((timestamp - currentTime : Int) : Rat) / 86400000 * (4 / 10)

def ContextScore.ofRow (score : ContextScore) (currentTime : Int) (row : MemoryEntity) : Rat :=
  score currentTime row.importanceScore row.timestamp

/-- `LIMIT`, where a negative limit is none. -/
def sqlLimit {α : Type*} (limit : Int) (rows : List α) : List α :=
  if limit < 0 then rows else rows.take limit.toNat

def getContextMemoriesBy (score : ContextScore) (currentTime limit : Int) (table : MemoryTable) :
    List MemoryEntity :=
  sqlLimit limit (rankDesc (score.ofRow currentTime) table.rows)

/-- `getContextMemories` with exact scores. -/
def getContextMemories (currentTime limit : Int) (table : MemoryTable) : List MemoryEntity :=
  getContextMemoriesBy exactScore currentTime limit table

/-! ## Deleting -/

/-- `@Delete`: the row with the id of `memory`. -/
def deleteMemory (memory : MemoryEntity) (table : MemoryTable) : MemoryTable :=
  deleteWhere (fun row => row.id == memory.id) table

def deleteMemoryById (id : Int) (table : MemoryTable) : MemoryTable :=
  deleteWhere (fun row => row.id == id) table

def deleteOldMemories (before : Int) (table : MemoryTable) : MemoryTable :=
  deleteWhere (fun row => decide (row.timestamp < before) && !row.isPermanent) table

/-- The subquery of `deleteLowImportanceMemories`, before `ORDER BY`. -/
def lowImportance (minScore : Int) (table : MemoryTable) : List MemoryEntity :=
  table.rows.filter fun row => decide (row.importanceScore < minScore) && !row.isPermanent

/-- `ORDER BY importance_score ASC` leaves the order of equal scores to the database. -/
def deleteLowImportanceMemories (minScore count : Int)
    (sorter : Sorter MemoryEntity.importanceScore) (table : MemoryTable) : MemoryTable :=
  let ids := (sqlLimit count (sorter.sort (lowImportance minScore table))).map (·.id)
  deleteWhere (fun row => ids.contains row.id) table

def deleteAllNonPermanent (table : MemoryTable) : MemoryTable :=
  deleteWhere (fun row => !row.isPermanent) table

end MemoryDao

/-! ## Every statement keeps the primary key -/

namespace MemoryTable.PrimaryKey

open MemoryDao

variable {table : MemoryTable}

theorem deleteWhere (h : table.PrimaryKey) (p : MemoryEntity → Bool) :
    (MemoryDao.deleteWhere p table).PrimaryKey where
  nodup := h.nodup.sublist (List.filter_sublist.map _)
  le_lastId := fun row hrow => h.le_lastId row (List.mem_filter.mp hrow).1

theorem updateWhere (h : table.PrimaryKey) {p : MemoryEntity → Bool}
    {set : MemoryEntity → MemoryEntity} (hset : ∀ row, p row → (set row).id = row.id) :
    (MemoryDao.updateWhere p set table).PrimaryKey := by
  have hid : ∀ row, (if p row then set row else row).id = row.id := by
    intro row
    split
    · next hp => exact hset row hp
    · rfl
  constructor
  · show ((table.rows.map fun row => if p row then set row else row).map (·.id)).Nodup
    have hids : (table.rows.map fun row => if p row then set row else row).map (·.id) =
        table.rows.map (·.id) := by
      rw [List.map_map]
      exact List.map_congr_left fun row _ => hid row
    rw [hids]
    exact h.nodup
  · intro row hrow
    obtain ⟨old, hold, rfl⟩ := List.mem_map.mp hrow
    rw [hid old]
    exact h.le_lastId old hold

theorem insertMemory (h : table.PrimaryKey) (memory : MemoryEntity) :
    (MemoryDao.insertMemory memory table).2.PrimaryKey := by
  unfold MemoryDao.insertMemory
  split
  · constructor
    · simp only [List.map_append, List.map_cons, List.map_nil]
      refine List.nodup_append.mpr ⟨h.nodup, List.nodup_singleton _, ?_⟩
      intro a ha b hb heq
      obtain ⟨row, hrow, rfl⟩ := List.mem_map.mp ha
      have hle := h.le_lastId row hrow
      rw [List.mem_singleton] at hb
      omega
    · intro row hrow
      rcases List.mem_append.mp hrow with hold | hnew
      · have hle := h.le_lastId row hold
        show row.id ≤ table.lastId + 1
        omega
      · rw [List.mem_singleton.mp hnew]
  · constructor
    · simp only [List.map_append, List.map_cons, List.map_nil]
      refine List.nodup_append.mpr ⟨h.nodup.sublist (List.filter_sublist.map _),
        List.nodup_singleton _, ?_⟩
      intro a ha b hb heq
      obtain ⟨row, hrow, rfl⟩ := List.mem_map.mp ha
      have hne := (List.mem_filter.mp hrow).2
      rw [List.mem_singleton] at hb
      simp [heq, hb] at hne
    · intro row hrow
      rcases List.mem_append.mp hrow with hold | hnew
      · exact (h.le_lastId row (List.mem_filter.mp hold).1).trans (le_max_left _ _)
      · rw [List.mem_singleton.mp hnew]
        exact le_max_right _ _

theorem insertMemories (h : table.PrimaryKey) (memories : List MemoryEntity) :
    (MemoryDao.insertMemories memories table).2.PrimaryKey := by
  induction memories generalizing table with
  | nil => exact h
  | cons memory memories ih => exact ih (h.insertMemory memory)

theorem updateMemory (h : table.PrimaryKey) (memory : MemoryEntity) :
    (MemoryDao.updateMemory memory table).PrimaryKey :=
  h.updateWhere fun _ hid => (beq_iff_eq.mp hid).symm

theorem incrementAccessCount (h : table.PrimaryKey) (id : Int) :
    (MemoryDao.incrementAccessCount id table).PrimaryKey :=
  h.updateWhere fun _ _ => rfl

theorem markAsPermanent (h : table.PrimaryKey) (id : Int) :
    (MemoryDao.markAsPermanent id table).PrimaryKey :=
  h.updateWhere fun _ _ => rfl

/-- Rows with the same id are the same row. -/
theorem eq_of_id_eq (h : table.PrimaryKey) {row other : MemoryEntity} (hrow : row ∈ table.rows)
    (hother : other ∈ table.rows) (hid : row.id = other.id) : row = other :=
  List.inj_on_of_nodup_map h.nodup hrow hother hid

end MemoryTable.PrimaryKey

namespace MemoryDao

variable {table : MemoryTable} {minScore count : Int} {row : MemoryEntity}

theorem mem_lowImportance :
    row ∈ lowImportance minScore table ↔
      row ∈ table.rows ∧ row.importanceScore < minScore ∧ row.isPermanent = false := by
  rw [lowImportance, List.mem_filter, Bool.and_eq_true_iff, decide_eq_true_iff,
    Bool.not_eq_true']

theorem mem_of_mem_sqlLimit {α : Type*} {limit : Int} {l : List α} {x : α}
    (h : x ∈ sqlLimit limit l) : x ∈ l := by
  unfold sqlLimit at h
  split at h
  · exact h
  · exact List.mem_of_mem_take h

/-- As ids are distinct, a row is deleted by its id only when the subquery selected it. -/
theorem mem_lowIds_iff (hkey : table.PrimaryKey) (hrow : row ∈ table.rows)
    {sorter : Sorter MemoryEntity.importanceScore} :
    ((sqlLimit count (sorter.sort (lowImportance minScore table))).map (·.id)).contains row.id ↔
      row ∈ sqlLimit count (sorter.sort (lowImportance minScore table)) := by
  rw [List.contains_iff_mem]
  constructor
  · intro h
    obtain ⟨other, hother, hid⟩ := List.mem_map.mp h
    have hmem : other ∈ table.rows :=
      (mem_lowImportance.mp (sorter.mem_sort.mp (mem_of_mem_sqlLimit hother))).1
    exact hkey.eq_of_id_eq hmem hrow hid ▸ hother
  · exact fun h => List.mem_map.mpr ⟨row, h, rfl⟩

theorem not_permanent_of_lowImportance (hkey : table.PrimaryKey) (hrow : row ∈ table.rows)
    {sorter : Sorter MemoryEntity.importanceScore}
    (h : ((sqlLimit count (sorter.sort (lowImportance minScore table))).map (·.id)).contains
      row.id) : row.isPermanent = false :=
  (mem_lowImportance.mp
    (sorter.mem_sort.mp (mem_of_mem_sqlLimit ((mem_lowIds_iff hkey hrow).mp h)))).2.2

end MemoryDao

end Kaede
