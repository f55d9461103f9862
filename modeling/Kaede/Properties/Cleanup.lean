import Kaede.Properties.Permanence

/-!
# What one cleanup deletes

Two deletions follow each other: up to a hundred rows of low importance, if there are many rows,
and everything that is old. Both spare permanent rows.

* `importance_le_of_deleted` — the first deletion takes nothing more important than a row it spares
* `cleanupOldMemories_spec` — permanent rows stay, old ones go, survivors are unchanged, and nothing
  goes that dominates a survivor
-/

namespace Kaede

open Infra

variable {table : MemoryTable} {row : MemoryEntity}

/-! ## The two deletions -/

namespace MemoryDao

theorem mem_deleteOldMemories {before : Int} :
    row ∈ (deleteOldMemories before table).rows ↔
      row ∈ table.rows ∧ (row.isPermanent = true ∨ before ≤ row.timestamp) := by
  rw [deleteOldMemories, deleteWhere, List.mem_filter]
  cases row.isPermanent <;> simp

theorem mem_deleteLowImportanceMemories {minScore count : Int}
    {sorter : Sorter MemoryEntity.importanceScore} (hkey : table.PrimaryKey) :
    row ∈ (deleteLowImportanceMemories minScore count sorter table).rows ↔
      row ∈ table.rows ∧
        row ∉ sqlLimit count (sorter.sort (lowImportance minScore table)) := by
  rw [deleteLowImportanceMemories, deleteWhere, List.mem_filter]
  refine and_congr_right fun hrow => ?_
  rw [Bool.not_eq_true', ← Bool.not_eq_true, mem_lowIds_iff hkey hrow]

/-- What a positive limit cuts off comes after what it lets through. -/
theorem importance_le_of_sqlLimit {count : Int} {sorter : Sorter MemoryEntity.importanceScore}
    {l : List MemoryEntity} {deleted kept : MemoryEntity}
    (hdeleted : deleted ∈ sqlLimit count (sorter.sort l)) (hmem : kept ∈ l)
    (hkept : kept ∉ sqlLimit count (sorter.sort l)) :
    deleted.importanceScore ≤ kept.importanceScore := by
  unfold sqlLimit at hdeleted hkept
  split at hdeleted
  · next hneg =>
    rw [if_pos hneg] at hkept
    exact absurd (sorter.mem_sort.mpr hmem) hkept
  · next hpos =>
    rw [if_neg hpos] at hkept
    have hsort := sorter.mem_sort.mpr hmem
    rw [← List.take_append_drop count.toNat (sorter.sort l), List.mem_append] at hsort
    exact sorter.key_le_of_mem_take_of_mem_drop hdeleted (hsort.resolve_left hkept)

/-- The deletion by importance takes nothing that is more important than a row it could have taken
and did not. -/
theorem importance_le_of_deleted {minScore count : Int}
    {sorter : Sorter MemoryEntity.importanceScore} (hkey : table.PrimaryKey)
    {deleted kept : MemoryEntity} (hdeleted : deleted ∈ table.rows)
    (hgone : deleted ∉ (deleteLowImportanceMemories minScore count sorter table).rows)
    (hkept : kept ∈ (deleteLowImportanceMemories minScore count sorter table).rows)
    (hperm : kept.isPermanent = false) : deleted.importanceScore ≤ kept.importanceScore := by
  rw [mem_deleteLowImportanceMemories hkey] at hgone hkept
  have hselected := not_not.mp fun h => hgone ⟨hdeleted, h⟩
  obtain ⟨-, hlow, -⟩ :=
    mem_lowImportance.mp (sorter.mem_sort.mp (mem_of_mem_sqlLimit hselected))
  by_cases hkeptLow : kept.importanceScore < minScore
  · exact importance_le_of_sqlLimit hselected
      (mem_lowImportance.mpr ⟨hkept.1, hkeptLow, hperm⟩) hkept.2
  · omega

end MemoryDao

/-! ## The cleanup -/

namespace MemoryRepository

/-- The cutoff is never before 30 days ago. The subtraction can only wrap upwards. -/
theorem le_thirtyDaysAgo (now : Int64) : now.toInt - 2592000000 ≤ (thirtyDaysAgo now).toInt := by
  have hconst : ((30 * 24 * 60 * 60 * 1000 : Int64)).toInt = 2592000000 := by decide
  rw [thirtyDaysAgo, Int64.toInt_sub, hconst, Int.bmod_eq_emod]
  have hlt := now.toInt_lt
  have hle := now.le_toInt
  split <;> omega

/-- **One cleanup respects permanence, age and importance**, however equal scores are ordered. -/
theorem cleanupOldMemories_spec (now : Int64) (sorter : Sorter MemoryEntity.importanceScore)
    (hkey : table.PrimaryKey) :
    (∀ row ∈ table.rows, row.isPermanent = true →
        row ∈ (cleanupOldMemories now sorter table).rows) ∧
      (∀ row ∈ (cleanupOldMemories now sorter table).rows, row.isPermanent = false →
        now.toInt - 30 * 24 * 60 * 60 * 1000 ≤ row.timestamp) ∧
      (cleanupOldMemories now sorter table).rows.Sublist table.rows ∧
      ∀ deleted ∈ table.rows, deleted ∉ (cleanupOldMemories now sorter table).rows →
        ∀ kept ∈ (cleanupOldMemories now sorter table).rows,
          deleted.isPermanent = false → kept.isPermanent = false →
            ¬ (kept.importanceScore < deleted.importanceScore ∧
              kept.timestamp ≤ deleted.timestamp) := by
  unfold cleanupOldMemories
  dsimp only
  generalize htrimmed : (if 1000 < MemoryDao.getMemoryCount table then
    MemoryDao.deleteLowImportanceMemories 2 100 sorter table else table) = trimmed
  have hsub : trimmed.rows.Sublist table.rows := by
    rw [← htrimmed]
    split
    · exact List.filter_sublist
    · exact List.Sublist.refl _
  refine ⟨?permanent, ?age, ?unchanged, ?importance⟩
  case permanent =>
    intro row hrow hperm
    refine MemoryDao.mem_deleteOldMemories.mpr ⟨?_, Or.inl hperm⟩
    rw [← htrimmed]
    split
    · rw [MemoryDao.mem_deleteLowImportanceMemories hkey]
      refine ⟨hrow, fun hselected => ?_⟩
      have hlow := MemoryDao.mem_lowImportance.mp
        (sorter.mem_sort.mp (MemoryDao.mem_of_mem_sqlLimit hselected))
      rw [hlow.2.2] at hperm
      cases hperm
    · exact hrow
  case age =>
    intro row hrow hperm
    have hcutoff := le_thirtyDaysAgo now
    rcases (MemoryDao.mem_deleteOldMemories.mp hrow).2 with htrue | hyoung
    · rw [hperm] at htrue
      cases htrue
    · omega
  case unchanged => exact List.filter_sublist.trans hsub
  case importance =>
    rintro deleted hdeleted hgone kept hkept hdeletedPerm hkeptPerm ⟨hless, hrecent⟩
    rw [MemoryDao.mem_deleteOldMemories] at hgone hkept
    have hyoung := hkept.2.resolve_left (by rw [hkeptPerm]; exact Bool.false_ne_true)
    -- the survivor is young enough, hence so is the row that is gone: it fell to the first deletion
    have hfell : deleted ∉ trimmed.rows := fun h => hgone ⟨h, Or.inr (hyoung.trans hrecent)⟩
    rw [← htrimmed] at hfell hkept
    split at hfell
    · next hmany =>
      rw [if_pos hmany] at hkept
      have hle := MemoryDao.importance_le_of_deleted hkey hdeleted hfell hkept.1 hkeptPerm
      omega
    · exact hfell hdeleted

/-- Of the two memories, the old one goes. -/
theorem cleanupOldMemories_spec_twoMemories :
    (cleanupOldMemories 9000000000 (Sorter.stable _) Housekeeping.twoMemories).rows.length = 1 ∧
      (cleanupOldMemories 9000000000 (Sorter.stable _) Housekeeping.twoMemories).rows.Sublist
        Housekeeping.twoMemories.rows :=
  ⟨rfl, (cleanupOldMemories_spec 9000000000 (Sorter.stable _)
    Housekeeping.primaryKey_twoMemories).2.2.1⟩

end MemoryRepository

end Kaede
