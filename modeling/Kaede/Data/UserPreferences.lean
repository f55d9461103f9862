import Kaede.Decimal
import Kaede.Infra.Machine

/-!
# User preferences

The `user_preferences` table, its DAO, what `MemoryRepository` does with it, and any number of
coroutines that do so at once. Each DAO call is one step.

* `uniqueKeys_of_run` — the table never holds two rows for one key
-/

namespace Kaede

open Infra

structure UserPreferencesEntity where
  id : Int := 0
  key : Text
  value : Text
  timestamp : Int
  isEncrypted : Bool := false
deriving DecidableEq, Repr

/-- The table and the last id that `AUTOINCREMENT` gave out. -/
structure PreferencesTable where
  rows : List UserPreferencesEntity
  lastId : Int
deriving DecidableEq, Repr

/-- What the unique index on `key` promises. -/
def PreferencesTable.UniqueKeys (table : PreferencesTable) : Prop :=
  (table.rows.map (·.key)).Nodup

instance (table : PreferencesTable) : Decidable table.UniqueKeys :=
  inferInstanceAs (Decidable (table.rows.map (·.key)).Nodup)

namespace PreferenceKeys

def conversationCount : Text := utf16 "conversation_count"

end PreferenceKeys

/-! ## The DAO -/

namespace UserPreferencesDao

/-- `SELECT value FROM user_preferences WHERE key = :key LIMIT 1`. -/
def getPreferenceValue (key : Text) (table : PreferencesTable) : Option Text :=
  (table.rows.find? fun row => row.key == key).map (·.value)

/-- `@Insert(onConflict = REPLACE)`. A row goes when it has the same key or the same id. The id `0`
asks for a generated one, which no row has. -/
def insertPreference (preferences : UserPreferencesEntity) (table : PreferencesTable) :
    PreferencesTable :=
  let others := table.rows.filter fun row => row.key != preferences.key
  if preferences.id = 0 then
    let id := table.lastId + 1
    { rows := others ++ [{ preferences with id := id }], lastId := id }
  else
    { rows := others.filter (fun row => row.id != preferences.id) ++ [preferences],
      lastId := max table.lastId preferences.id }

end UserPreferencesDao

/-! ## The repository -/

namespace MemoryRepository

def getPreference (key : Text) (table : PreferencesTable) : Option Text :=
  UserPreferencesDao.getPreferenceValue key table

/-- `setPreference` called at time `now`. -/
def setPreference (now : Int) (key value : Text) (table : PreferencesTable) : PreferencesTable :=
  UserPreferencesDao.insertPreference { key := key, value := value, timestamp := now } table

def getConversationCount (table : PreferencesTable) : Int :=
  let count := (getPreference PreferenceKeys.conversationCount table).getD (utf16 "0")
  (toIntOrNull count).getD 0

/-- `count + 1` on `Int`. -/
def nextCount (count : Int) : Int := (count + 1).bmod (2 ^ 32)

/-- The second half of `incrementConversationCount`, after `count` was read. -/
def storeNextCount (now count : Int) (table : PreferencesTable) : PreferencesTable :=
  setPreference now PreferenceKeys.conversationCount (intText (nextCount count)) table

end MemoryRepository

/-! ## Coroutines -/

/-- Where a call of `incrementConversationCount` stands. -/
inductive IncrementStage where
  | reading
  | writing (count : Int)
  | finished
deriving DecidableEq, Repr

structure Preferences where
  table : PreferencesTable
  /-- The calls of `incrementConversationCount` so far, in the order they were made. -/
  calls : List IncrementStage
deriving DecidableEq, Repr

namespace Preferences

inductive Event where
  /-- `incrementConversationCount()` is called. -/
  | incrementConversationCount
  /-- The `i`-th call reads the count. -/
  | read (i : Nat)
  /-- The `i`-th call reads the clock at `now` and writes. -/
  | write (i : Nat) (now : Int)
  /-- A `setPreference` of somebody else. -/
  | setPreference (now : Int) (key value : Text)
deriving DecidableEq, Repr

def step (s : Preferences) : Event → Option Preferences
  | .incrementConversationCount => some { s with calls := s.calls ++ [.reading] }
  | .read i =>
    match s.calls[i]? with
    | some .reading =>
      some { s with calls := s.calls.set i (.writing (MemoryRepository.getConversationCount s.table)) }
    | _ => none
  | .write i now =>
    match s.calls[i]? with
    | some (.writing count) =>
      some { table := MemoryRepository.storeNextCount now count s.table,
             calls := s.calls.set i .finished }
    | _ => none
  | .setPreference now key value =>
    some { s with table := MemoryRepository.setPreference now key value s.table }

def machine : Machine Preferences Event := ⟨step⟩

variable {s t : Preferences} {e : Event} {es : List Event}

/-- What a step can do. -/
theorem step_cases (h : machine.step s e = some t) :
    (e = .incrementConversationCount ∧ t = { s with calls := s.calls ++ [.reading] }) ∨
    (∃ i, e = .read i ∧ s.calls[i]? = some .reading ∧
      t = { s with
        calls := s.calls.set i (.writing (MemoryRepository.getConversationCount s.table)) }) ∨
    (∃ i now count, e = .write i now ∧ s.calls[i]? = some (.writing count) ∧
      t = { table := MemoryRepository.storeNextCount now count s.table,
            calls := s.calls.set i .finished }) ∨
    (∃ now key value, e = .setPreference now key value ∧
      t = { s with table := MemoryRepository.setPreference now key value s.table }) := by
  change step s e = some t at h
  cases e with
  | incrementConversationCount =>
    cases h
    exact Or.inl ⟨rfl, rfl⟩
  | read i =>
    rw [step] at h
    split at h
    · next hcall =>
      cases h
      exact Or.inr (Or.inl ⟨i, rfl, hcall, rfl⟩)
    · cases h
  | write i now =>
    rw [step] at h
    split at h
    · next count hcall =>
      cases h
      exact Or.inr (Or.inr (Or.inl ⟨i, now, count, rfl, hcall, rfl⟩))
    · cases h
  | setPreference now key value =>
    cases h
    exact Or.inr (Or.inr (Or.inr ⟨now, key, value, rfl, rfl⟩))

end Preferences

/-! ## One row per key -/

theorem PreferencesTable.uniqueKeys_concat {rows : List UserPreferencesEntity}
    {row : UserPreferencesEntity} {lastId : Int} (hrows : (rows.map (·.key)).Nodup)
    (hrow : ∀ other ∈ rows, other.key ≠ row.key) :
    PreferencesTable.UniqueKeys { rows := rows ++ [row], lastId := lastId } := by
  unfold PreferencesTable.UniqueKeys
  simp only [List.map_append, List.map_cons, List.map_nil]
  refine List.nodup_append.mpr ⟨hrows, List.nodup_singleton _, ?_⟩
  intro a ha b hb hab
  obtain ⟨other, hother, rfl⟩ := List.mem_map.mp ha
  rw [List.mem_singleton] at hb
  exact hrow other hother (hab.trans hb)

theorem UserPreferencesDao.uniqueKeys_insertPreference {table : PreferencesTable}
    (h : table.UniqueKeys) (preferences : UserPreferencesEntity) :
    (insertPreference preferences table).UniqueKeys := by
  have hothers : ((table.rows.filter fun row => row.key != preferences.key).map (·.key)).Nodup :=
    h.sublist (List.filter_sublist.map _)
  unfold insertPreference
  dsimp only
  split
  · refine PreferencesTable.uniqueKeys_concat hothers fun other hother => ?_
    exact bne_iff_ne.mp (List.mem_filter.mp hother).2
  · refine PreferencesTable.uniqueKeys_concat (hothers.sublist (List.filter_sublist.map _)) ?_
    intro other hother
    exact bne_iff_ne.mp (List.mem_filter.mp (List.mem_filter.mp hother).1).2

namespace Preferences

variable {s t : Preferences} {e : Event} {es : List Event}

theorem uniqueKeys_of_step (hkeys : s.table.UniqueKeys) (h : machine.step s e = some t) :
    t.table.UniqueKeys := by
  rcases step_cases h with ⟨-, rfl⟩ | ⟨i, -, -, rfl⟩ | ⟨i, now, count, -, -, rfl⟩ |
    ⟨now, key, value, -, rfl⟩
  · exact hkeys
  · exact hkeys
  · exact UserPreferencesDao.uniqueKeys_insertPreference hkeys _
  · exact UserPreferencesDao.uniqueKeys_insertPreference hkeys _

/-- **No run puts two rows under one key.** -/
theorem uniqueKeys_of_run (hkeys : s.table.UniqueKeys) (h : machine.run s es = some t) :
    t.table.UniqueKeys :=
  machine.run_invariant (fun _ _ _ hkeys h => uniqueKeys_of_step hkeys h) hkeys h

end Preferences

end Kaede
