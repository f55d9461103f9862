import Kaede.Properties.Cleanup
import Mathlib.Data.List.Basic

/-!
# When a cleanup makes room

* `length_removed` — how many rows one cleanup removes, as a count over the table
* `makesRoom_iff` — a cleanup removes a hundred rows exactly when a hundred rows are doomed
* `crowded_not_trimmed` — a table that only `saveMemory` has written to, and that stays as it is
-/

namespace Kaede

open Infra

variable {table : MemoryTable} {now : Int64} {sorter : Sorter MemoryEntity.importanceScore}

namespace MemoryDao

/-- The rows that the first deletion selects, when its guard holds. -/
def trimmed (sorter : Sorter MemoryEntity.importanceScore) (table : MemoryTable) :
    List MemoryEntity :=
  if 1000 < getMemoryCount table then sqlLimit 100 (sorter.sort (lowImportance 2 table)) else []

theorem trimmed_eq_nil (h : ¬ 1000 < getMemoryCount table) : trimmed sorter table = [] := if_neg h

theorem trimmed_eq_take (h : 1000 < getMemoryCount table) :
    trimmed sorter table = (sorter.sort (lowImportance 2 table)).take 100 := if_pos h

theorem mem_lowImportance_of_mem_trimmed {row : MemoryEntity} (h : row ∈ trimmed sorter table) :
    row ∈ lowImportance 2 table := by
  unfold trimmed at h
  split at h
  · exact sorter.mem_sort.mp (mem_of_mem_sqlLimit h)
  · cases h

theorem nodup_rows (hkey : table.PrimaryKey) : table.rows.Nodup := List.Nodup.of_map _ hkey.nodup

theorem nodup_trimmed (hkey : table.PrimaryKey) : (trimmed sorter table).Nodup := by
  have hlow : (lowImportance 2 table).Nodup := (nodup_rows hkey).filter _
  unfold trimmed
  split
  · exact ((sorter.perm _).nodup_iff.mpr hlow).sublist (List.take_sublist 100 _)
  · exact List.nodup_nil

end MemoryDao

namespace MemoryRepository

open MemoryDao

/-- The second deletion takes the row. -/
def isOld (now : Int64) (row : MemoryEntity) : Bool :=
  decide (row.timestamp < (thirtyDaysAgo now).toInt) && !row.isPermanent

/-- A row that a cleanup may remove: it is not permanent, and it is old, or there are many rows and
it is of low importance. -/
def isDoomed (now : Int64) (table : MemoryTable) (row : MemoryEntity) : Bool :=
  !row.isPermanent && (decide (row.timestamp < (thirtyDaysAgo now).toInt) ||
    (decide (1000 < getMemoryCount table) && decide (row.importanceScore < 2)))

/-- How many rows one cleanup removes. -/
def removed (now : Int64) (sorter : Sorter MemoryEntity.importanceScore) (table : MemoryTable) :
    Nat :=
  table.rows.length - (cleanupOldMemories now sorter table).rows.length

theorem rows_cleanupOldMemories (hkey : table.PrimaryKey) :
    (cleanupOldMemories now sorter table).rows =
      table.rows.filter fun row => !(decide (row ∈ trimmed sorter table) || isOld now row) := by
  unfold cleanupOldMemories
  dsimp only
  rw [deleteOldMemories, deleteWhere]
  split
  · next hmany =>
    rw [deleteLowImportanceMemories, deleteWhere, List.filter_filter]
    refine List.filter_congr fun row hrow => ?_
    have hselected : ((sqlLimit 100 (sorter.sort (lowImportance 2 table))).map (·.id)).contains
        row.id = decide (row ∈ trimmed sorter table) := by
      rw [Bool.eq_iff_iff, mem_lowIds_iff hkey hrow, decide_eq_true_iff, trimmed, if_pos hmany]
    rw [hselected, isOld, Bool.not_or, Bool.and_comm]
  · next hfew =>
    rw [trimmed_eq_nil hfew]
    simp [isOld]

/-- What is removed is what one of the deletions takes. -/
theorem length_removed (hkey : table.PrimaryKey) :
    removed now sorter table =
      (table.rows.filter fun row => decide (row ∈ trimmed sorter table) || isOld now row).length := by
  have hsplit := List.length_eq_length_filter_add (l := table.rows)
    fun row => decide (row ∈ trimmed sorter table) || isOld now row
  rw [removed, rows_cleanupOldMemories hkey]
  omega

/-- Only doomed rows are removed. -/
theorem isDoomed_of_removed {row : MemoryEntity}
    (h : (decide (row ∈ trimmed sorter table) || isOld now row) = true) :
    isDoomed now table row = true := by
  rcases Bool.or_eq_true_iff.mp h with hselected | hold
  · have hmem : row ∈ trimmed sorter table := of_decide_eq_true hselected
    obtain ⟨-, hlow, hperm⟩ := mem_lowImportance.mp (mem_lowImportance_of_mem_trimmed hmem)
    have hmany : 1000 < getMemoryCount table := by
      by_contra hfew
      rw [trimmed_eq_nil hfew] at hmem
      cases hmem
    simp [isDoomed, hlow, hperm, hmany]
  · simp only [isOld, Bool.and_eq_true_iff] at hold
    simp [isDoomed, hold.1, hold.2]

/-- Unless the first deletion reaches its limit, every doomed row is removed. -/
theorem removed_of_isDoomed (hfew : (lowImportance 2 table).length ≤ 100) {row : MemoryEntity}
    (hrow : row ∈ table.rows) (h : isDoomed now table row = true) :
    (decide (row ∈ trimmed sorter table) || isOld now row) = true := by
  simp only [isDoomed, Bool.and_eq_true_iff, Bool.or_eq_true_iff] at h
  obtain ⟨hperm, hold | ⟨hmany, hlow⟩⟩ := h
  · simp [isOld, hold, hperm]
  · have hmany : 1000 < getMemoryCount table := of_decide_eq_true hmany
    have hmem : row ∈ trimmed sorter table := by
      rw [trimmed_eq_take hmany, List.take_of_length_le ((sorter.perm _).length_eq.trans_le hfew)]
      exact sorter.mem_sort.mpr (mem_lowImportance.mpr
        ⟨hrow, of_decide_eq_true hlow, by simpa using hperm⟩)
    simp [hmem]

/-- A first deletion that reaches its limit removes a hundred rows. -/
theorem le_removed_of_many (hkey : table.PrimaryKey) (hmany : 1000 < getMemoryCount table)
    (hlow : 100 ≤ (lowImportance 2 table).length) : 100 ≤ removed now sorter table := by
  have hlength : (trimmed sorter table).length = 100 := by
    rw [trimmed_eq_take hmany, List.length_take, (sorter.perm _).length_eq, Nat.min_eq_left hlow]
  rw [length_removed hkey, ← hlength]
  refine (nodup_trimmed hkey).length_le_of_subset fun row hrow => List.mem_filter.mpr ⟨?_, ?_⟩
  · exact (mem_lowImportance.mp (mem_lowImportance_of_mem_trimmed hrow)).1
  · rw [decide_eq_true hrow, Bool.true_or]

/--
**A cleanup removes a hundred rows exactly when a hundred rows are doomed.**

A doomed row is not permanent, and it is older than thirty days, or there are more than 1000 rows
and its importance is below 2.
-/
theorem makesRoom_iff (now : Int64) (sorter : Sorter MemoryEntity.importanceScore)
    (hkey : table.PrimaryKey) :
    100 ≤ removed now sorter table ↔ 100 ≤ (table.rows.filter (isDoomed now table)).length := by
  have hle : removed now sorter table ≤ (table.rows.filter (isDoomed now table)).length := by
    rw [length_removed hkey]
    exact (List.monotone_filter_right _ fun _ => isDoomed_of_removed).length_le
  refine ⟨fun h => h.trans hle, fun h => ?_⟩
  by_cases hfew : (lowImportance 2 table).length ≤ 100
  · -- the first deletion takes every row of low importance
    rw [length_removed hkey]
    refine h.trans (le_of_eq (congrArg List.length (List.filter_congr fun row hrow => ?_)))
    exact Bool.eq_iff_iff.mpr ⟨removed_of_isDoomed hfew hrow, isDoomed_of_removed⟩
  · by_cases hmany : 1000 < getMemoryCount table
    · exact le_removed_of_many hkey hmany (by omega)
    · rw [length_removed hkey]
      refine h.trans (le_of_eq (congrArg List.length (List.filter_congr fun row hrow => ?_)))
      simp [isDoomed, isOld, trimmed_eq_nil hmany, hmany, Bool.and_comm]

/-! ### Examples -/

/-- A table that has been written to by `n` calls of `saveMemory` and by nothing else. -/
def savedTimes (memory : MemoryEntity) : Nat → MemoryTable
  | 0 => { rows := [], lastId := 0 }
  | n + 1 => saveMemory memory (savedTimes memory n)

theorem savedTimes_eq {memory : MemoryEntity} (hid : memory.id = 0) (n : Nat) :
    savedTimes memory n =
      { rows := (List.range n).map fun i : Nat => { memory with id := i + 1 }, lastId := n } := by
  induction n with
  | zero => rfl
  | succ n ih =>
    rw [savedTimes, ih, saveMemory, insertMemory, if_pos hid, List.range_succ, List.map_append]
    rfl

theorem primaryKey_savedTimes (memory : MemoryEntity) (n : Nat) :
    (savedTimes memory n).PrimaryKey := by
  induction n with
  | zero => exact ⟨List.nodup_nil, fun row hrow => absurd hrow List.not_mem_nil⟩
  | succ n ih => exact ih.insertMemory memory

/-- What `ChatViewModel` saves for a message of importance 5. -/
def loveMemory : MemoryEntity :=
  memoryToSave 0 (utf16 "User said: I love you") 5 .conversation (utf16 "HAPPY")

theorem mem_loveTimes {n : Nat} {row : MemoryEntity} (h : row ∈ (savedTimes loveMemory n).rows) :
    row.importanceScore = 5 ∧ row.timestamp = 0 ∧ row.isPermanent = false := by
  rw [savedTimes_eq rfl] at h
  obtain ⟨i, -, rfl⟩ := List.mem_map.mp h
  exact ⟨rfl, rfl, rfl⟩

theorem length_loveTimes (n : Nat) : (savedTimes loveMemory n).rows.length = n := by
  rw [savedTimes_eq rfl, List.length_map, List.length_range]

/-- More than thirty days later, all of them go. -/
theorem makesRoom_iff_old :
    100 ≤ removed 9000000000 (Sorter.stable _) (savedTimes loveMemory 1001) := by
  refine (makesRoom_iff 9000000000 (Sorter.stable _) (primaryKey_savedTimes loveMemory 1001)).mpr ?_
  have hcutoff : (0 : Int) < (thirtyDaysAgo 9000000000).toInt := by decide
  rw [List.filter_eq_self.mpr, length_loveTimes]
  · decide
  · intro row hrow
    obtain ⟨-, htime, hperm⟩ := mem_loveTimes hrow
    simp [isDoomed, htime, hperm, hcutoff]

/-- At once, nothing goes. -/
theorem crowded_not_trimmed :
    1000 < (savedTimes loveMemory 1001).rows.length ∧
      100 ≤ ((savedTimes loveMemory 1001).rows.filter fun row => !row.isPermanent).length ∧
      ¬ 100 ≤ removed 0 (Sorter.stable _) (savedTimes loveMemory 1001) := by
  have hcutoff : (thirtyDaysAgo 0).toInt ≤ 0 := by decide
  refine ⟨by rw [length_loveTimes]; decide, ?_, ?_⟩
  · rw [List.filter_eq_self.mpr, length_loveTimes]
    · decide
    · intro row hrow
      rw [(mem_loveTimes hrow).2.2]
      rfl
  · rw [length_removed (primaryKey_savedTimes loveMemory 1001), List.filter_eq_nil_iff.mpr]
    · decide
    · intro row hrow hremoved
      obtain ⟨hscore, htime, -⟩ := mem_loveTimes hrow
      have hdoomed := isDoomed_of_removed hremoved
      simp only [isDoomed, hscore, htime, Bool.and_eq_true_iff, Bool.or_eq_true_iff,
        decide_eq_true_iff] at hdoomed
      omega

end MemoryRepository

end Kaede
