import Kaede.Data.Housekeeping

/-!
# Permanent memories survive housekeeping

A statement either names the rows it writes by their id, or it spares permanent rows. So a
permanent row outlives every interleaving of the statements that do not name it.

* `kept_of_step` — every statement that spares the row by name keeps it
* `permanent_of_run` — so does every run
-/

namespace Kaede

open Infra

/-! ## A permanent row -/

/-- The row as it looks once it is permanent. Only its access count still moves. -/
def MemoryEntity.permanent (row : MemoryEntity) (accessCount : Int) : MemoryEntity :=
  { row with isPermanent := true, accessCount := accessCount }

namespace Housekeeping

def Kept (row : MemoryEntity) (table : MemoryTable) : Prop :=
  ∃ accessCount, row.permanent accessCount ∈ table.rows

/-- The event neither deletes nor overwrites the row with this id by name. -/
def Event.Spares (id : Int) : Event → Prop
  | .saveMemories memories => ∀ memory ∈ memories, memory.id ≠ id
  | .updateMemory memory => memory.id ≠ id
  | .deleteMemory memory => memory.id ≠ id
  | .deleteMemoryById deleted => deleted ≠ id
  | _ => True

variable {row : MemoryEntity} {table : MemoryTable}

theorem Kept.deleteWhere (h : Kept row table) {p : MemoryEntity → Bool}
    (hp : ∀ r ∈ table.rows, r.id = row.id → r.isPermanent = true → p r = false) :
    Kept row (MemoryDao.deleteWhere p table) := by
  obtain ⟨n, hmem⟩ := h
  exact ⟨n, List.mem_filter.mpr ⟨hmem, by rw [hp _ hmem rfl rfl]; rfl⟩⟩

theorem Kept.updateWhere (h : Kept row table) {p : MemoryEntity → Bool}
    {set : MemoryEntity → MemoryEntity}
    (hset : ∀ r, r.id = row.id → r.isPermanent = true → p r = true →
      ∃ accessCount, set r = { r with accessCount := accessCount }) :
    Kept row (MemoryDao.updateWhere p set table) := by
  obtain ⟨n, hmem⟩ := h
  have hnew := List.mem_map_of_mem (f := fun r => if p r then set r else r) hmem
  by_cases hp : p (row.permanent n) = true
  · obtain ⟨m, hm⟩ := hset (row.permanent n) rfl rfl hp
    rw [if_pos hp, hm] at hnew
    exact ⟨m, hnew⟩
  · rw [if_neg hp] at hnew
    exact ⟨n, hnew⟩

theorem Kept.insertMemory (h : Kept row table) {memory : MemoryEntity} (hid : memory.id ≠ row.id) :
    Kept row (MemoryDao.insertMemory memory table).2 := by
  obtain ⟨n, hmem⟩ := h
  refine ⟨n, ?_⟩
  unfold MemoryDao.insertMemory
  split
  · exact List.mem_append_left _ hmem
  · exact List.mem_append_left _ (List.mem_filter.mpr ⟨hmem, decide_eq_true hid.symm⟩)

theorem Kept.insertMemories (h : Kept row table) {memories : List MemoryEntity}
    (hids : ∀ memory ∈ memories, memory.id ≠ row.id) :
    Kept row (MemoryDao.insertMemories memories table).2 := by
  induction memories generalizing table with
  | nil => exact h
  | cons memory memories ih =>
    obtain ⟨hid, hids⟩ := List.forall_mem_cons.mp hids
    exact ih (h.insertMemory hid) hids

/-- `saveMemory` asks for a generated id, so it replaces nothing. -/
theorem Kept.saveMemory (h : Kept row table) {memory : MemoryEntity} (hid : memory.id = 0) :
    Kept row (MemoryRepository.saveMemory memory table) := by
  obtain ⟨n, hmem⟩ := h
  refine ⟨n, ?_⟩
  rw [MemoryRepository.saveMemory, MemoryDao.insertMemory, if_pos hid]
  exact List.mem_append_left _ hmem

theorem kept_statement (h : Kept row table) {e : Event} (hspares : e.Spares row.id) :
    Kept row (e.statement table) := by
  cases e with
  | saveMemory => exact h.saveMemory rfl
  | saveMemories memories => exact h.insertMemories hspares
  | updateMemory memory =>
    refine h.updateWhere fun r hr _ hp => absurd (beq_iff_eq.mp hp) ?_
    rw [hr]
    exact Ne.symm hspares
  | deleteMemory memory =>
    refine h.deleteWhere fun r _ hr _ => beq_false_of_ne ?_
    rw [hr]
    exact Ne.symm hspares
  | deleteMemoryById id =>
    refine h.deleteWhere fun r _ hr _ => beq_false_of_ne ?_
    rw [hr]
    exact Ne.symm hspares
  | markMemoryAsPermanent id =>
    -- the flag is set already
    exact h.updateWhere fun r _ hperm _ => ⟨r.accessCount, by rw [← hperm]⟩
  | incrementAccessCount id => exact h.updateWhere fun r _ _ _ => ⟨r.accessCount + 1, rfl⟩
  | clearAllMemories => exact h.deleteWhere fun r _ _ hperm => by rw [hperm]; rfl
  | cleanupOldMemories => exact h
  | cleanup => exact h

/-- Every statement that spares the row by name keeps it. -/
theorem kept_of_step {s t : Housekeeping} {e : Event} (hkey : s.table.PrimaryKey)
    (h : Kept row s.table) (hspares : e.Spares row.id) (hstep : step s e = some t) :
    Kept row t.table := by
  rcases table_of_step hstep with heq | ⟨now, sorter, stage, next, hnext, heq⟩
  · rw [heq]
    exact kept_statement h hspares
  · obtain ⟨p, hdelete, hp⟩ := cleanupStep_deletes hkey hnext
    rw [heq, hdelete]
    refine h.deleteWhere fun r hr _ hperm => ?_
    by_contra htrue
    rw [hp r hr (Bool.not_eq_false _ ▸ htrue)] at hperm
    cases hperm

theorem kept_of_run {s t : Housekeeping} {es : List Event} (hkey : s.table.PrimaryKey)
    (h : Kept row s.table) (hspares : ∀ e ∈ es, e.Spares row.id)
    (hrun : machine.run s es = some t) : Kept row t.table := by
  have halong := (Machine.along_const_iff hrun).mpr hspares
  refine (machine.run_invariant_along (I := fun s => s.table.PrimaryKey ∧ Kept row s.table)
    ?_ halong ⟨hkey, h⟩ hrun).2
  rintro s e t ⟨hkey, h⟩ hspares hstep
  exact ⟨primaryKey_of_step hkey hstep, kept_of_step hkey h hspares hstep⟩

/--
**A permanent row survives.**

Once `markMemoryAsPermanent` has run while the row existed, no run loses the row or what it says,
as long as nobody deletes or overwrites it by name.
-/
theorem permanent_of_run {s₀ s t u : Housekeeping} {before after : List Event}
    {row : MemoryEntity} (hkey : s₀.table.PrimaryKey) (hbefore : machine.run s₀ before = some s)
    (hrow : row ∈ s.table.rows)
    (hmark : step s (.markMemoryAsPermanent row.id) = some t)
    (hspares : ∀ e ∈ after, e.Spares row.id) (hafter : machine.run t after = some u) :
    ∃ stored ∈ u.table.rows,
      (∀ other ∈ u.table.rows, other.id = row.id → other = stored) ∧
        stored.id = row.id ∧ stored.isPermanent = true ∧ stored.content = row.content ∧
        stored.importanceScore = row.importanceScore ∧ stored.memoryType = row.memoryType ∧
        stored.timestamp = row.timestamp := by
  have hkeyS := primaryKey_of_run hkey hbefore
  have hkeyT := primaryKey_of_step hkeyS hmark
  have hkept : Kept row t.table := by
    cases hmark
    exact ⟨row.accessCount, List.mem_map.mpr ⟨row, hrow, if_pos (beq_self_eq_true row.id)⟩⟩
  obtain ⟨n, hmem⟩ := kept_of_run hkeyT hkept hspares hafter
  have hkeyU := primaryKey_of_run hkeyT hafter
  exact ⟨_, hmem, fun other hother hid => hkeyU.eq_of_id_eq hother hmem hid,
    rfl, rfl, rfl, rfl, rfl, rfl⟩

/-! ### An example -/

/-- A row of the table, as `saveMemory` would have built it. -/
def savedAt (id timestamp importanceScore : Int) (content : Text) : MemoryEntity :=
  { MemoryRepository.memoryToSave timestamp content importanceScore .conversation (utf16 "NORMAL")
    with id := id }

/-- One old memory of no importance, and one that is neither. -/
def twoMemories : MemoryTable :=
  { rows := [savedAt 1 0 0 (utf16 "a birthday"), savedAt 2 9000000000 7 (utf16 "a name")],
    lastId := 2 }

theorem primaryKey_twoMemories : twoMemories.PrimaryKey where
  nodup := by decide
  le_lastId := by decide

/-- Two cleanups and a `clearAllMemories`, with their statements mixed. -/
def busy : List Event :=
  [.cleanupOldMemories, .cleanup 0 9000000000 (Sorter.stable _), .cleanupOldMemories,
    .incrementAccessCount 1, .cleanup 1 0 (Sorter.stable _), .clearAllMemories,
    .cleanup 0 9000000000 (Sorter.stable _)]

theorem permanent_of_run_busy :
    ∃ u, machine.run ⟨twoMemories, []⟩ (.markMemoryAsPermanent 1 :: busy) = some u ∧
      ∃ stored ∈ u.table.rows, stored.isPermanent = true ∧ stored.content = utf16 "a birthday" := by
  refine ⟨_, rfl, ?_⟩
  obtain ⟨stored, hmem, -, -, hperm, hcontent, -⟩ :=
    permanent_of_run (show (⟨twoMemories, []⟩ : Housekeeping).table.PrimaryKey from
      primaryKey_twoMemories) (machine.run_nil _)
      (show savedAt 1 0 0 (utf16 "a birthday") ∈ twoMemories.rows from List.mem_cons_self) rfl
      (show ∀ e ∈ busy, e.Spares 1 by simp [busy, Event.Spares]) rfl
  exact ⟨stored, hmem, hperm, hcontent⟩

end Housekeeping

end Kaede
