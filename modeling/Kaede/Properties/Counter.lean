import Kaede.Data.UserPreferences

/-!
# The conversation counter

`incrementConversationCount` reads the count in one DAO call and writes it in another. Before
anything is lost, the stored count is the initial one plus the number of finished calls. From the
first write that does not find the count its call has read, the stored count stays behind for good.

* `inStep_of_run`, `atMost_of_run` — these two facts
* `conversationCount_iff` — the counter is right at the end exactly when every write found the count
  that its call had read
-/

namespace Kaede

open Infra

/-! ## Reading the count after a write -/

namespace MemoryRepository

variable {table : PreferencesTable}

theorem find?_key_concat {rows : List UserPreferencesEntity} {row : UserPreferencesEntity}
    {key : Text} (hrow : row.key = key) (h : ∀ other ∈ rows, other.key ≠ key) :
    (rows ++ [row]).find? (fun other => other.key == key) = some row := by
  have hnone : rows.find? (fun other => other.key == key) = none :=
    List.find?_eq_none.mpr fun other hother => by simpa using h other hother
  rw [List.find?_append, hnone, Option.none_or]
  exact List.find?_cons_of_pos (beq_iff_eq.mpr hrow)

theorem getPreference_setPreference (now : Int) (key value : Text) :
    getPreference key (setPreference now key value table) = some value := by
  unfold getPreference UserPreferencesDao.getPreferenceValue setPreference
    UserPreferencesDao.insertPreference
  dsimp only
  rw [if_pos rfl]
  have hothers : ∀ other ∈ table.rows.filter (fun row => row.key != key), other.key ≠ key :=
    fun other hother => bne_iff_ne.mp (List.mem_filter.mp hother).2
  refine congrArg (Option.map (·.value)) (find?_key_concat ?_ hothers)
  rfl

theorem getPreference_setPreference_of_ne {now : Int} {key other value : Text} (h : other ≠ key) :
    getPreference key (setPreference now other value table) = getPreference key table := by
  unfold getPreference UserPreferencesDao.getPreferenceValue setPreference
    UserPreferencesDao.insertPreference
  dsimp only
  rw [if_pos rfl, List.find?_append, List.find?_filter]
  have hsame : (fun row : UserPreferencesEntity =>
      decide ((row.key != other) = true ∧ (row.key == key) = true)) =
      fun row => row.key == key := by
    funext row
    by_cases hkey : row.key = key
    · simp [hkey, Ne.symm h]
    · simp [hkey]
  have hnew : [({ id := table.lastId + 1, key := other, value := value, timestamp := now } :
      UserPreferencesEntity)].find? (fun row => row.key == key) = none := by
    simp [h]
  rw [hsame, hnew, Option.or_none]

theorem getConversationCount_setPreference_of_ne {key : Text}
    (h : key ≠ PreferenceKeys.conversationCount) (now : Int) (value : Text) :
    getConversationCount (setPreference now key value table) = getConversationCount table := by
  rw [getConversationCount, getPreference_setPreference_of_ne h]
  rfl

/-- A count that still fits is read back as it was written. -/
theorem getConversationCount_storeNextCount {now count : Int} (hpos : 0 ≤ count)
    (hfits : count + 1 ≤ 2147483647) :
    getConversationCount (storeNextCount now count table) = count + 1 := by
  have hnext : nextCount count = count + 1 := by
    rw [nextCount, Int.bmod_eq_emod]
    split <;> omega
  have hint : IsInt (count + 1) := ⟨by omega, hfits⟩
  rw [getConversationCount, storeNextCount, getPreference_setPreference, hnext,
    Option.getD_some, toIntOrNull_intText hint, Option.getD_some]

end MemoryRepository

namespace Preferences

variable {s t u : Preferences} {e : Event} {es : List Event} {c : Int}

/-! ## The count while calls are running -/

/-- How many calls have written. -/
def finished (s : Preferences) : Nat := s.calls.count .finished

/-- The stored count, and every count that a call has read, is at most `d` plus the number of calls
that have written. -/
structure AtMost (d : Int) (s : Preferences) : Prop where
  stored : MemoryRepository.getConversationCount s.table ≤ d + s.finished
  nonneg : 0 ≤ MemoryRepository.getConversationCount s.table
  read : ∀ count, .writing count ∈ s.calls → 0 ≤ count ∧ count ≤ d + s.finished

/-- Nobody else writes the count. -/
def Event.Foreign : Event → Prop
  | .setPreference _ key _ => key ≠ PreferenceKeys.conversationCount
  | _ => True

/-- A write finds the count that its call has read. -/
def Undisturbed (s : Preferences) : Event → Prop
  | .write i _ => s.calls[i]? = some (.writing (MemoryRepository.getConversationCount s.table))
  | _ => True

instance (s : Preferences) : ∀ e, Decidable (Undisturbed s e)
  | .incrementConversationCount => .isTrue trivial
  | .read _ => .isTrue trivial
  | .write i _ => inferInstanceAs (Decidable
      (s.calls[i]? = some (.writing (MemoryRepository.getConversationCount s.table))))
  | .setPreference _ _ _ => .isTrue trivial

theorem finished_lt {i : Nat} {count : Int} (h : s.calls[i]? = some (.writing count)) :
    s.finished < s.calls.length := by
  refine lt_of_le_of_ne List.count_le_length fun heq => ?_
  have hall := List.count_eq_length.mp heq
  cases hall _ (List.mem_of_getElem? h)

theorem finished_read {i : Nat} {count : Int} (h : s.calls[i]? = some .reading) :
    (s.calls.set i (.writing count)).count .finished = s.finished := by
  obtain ⟨hlt, hget⟩ := List.getElem?_eq_some_iff.mp h
  rw [List.count_set hlt, hget]
  rfl

theorem finished_write {i : Nat} {count : Int} (h : s.calls[i]? = some (.writing count)) :
    (s.calls.set i .finished).count .finished = s.finished + 1 := by
  obtain ⟨hlt, hget⟩ := List.getElem?_eq_some_iff.mp h
  rw [List.count_set hlt, hget]
  rfl

theorem length_le_of_step (h : machine.step s e = some t) : s.calls.length ≤ t.calls.length := by
  rcases step_cases h with ⟨-, rfl⟩ | ⟨i, -, -, rfl⟩ | ⟨i, now, count, -, -, rfl⟩ |
    ⟨now, key, value, -, rfl⟩
  · simp
  · simp
  · simp
  · exact le_rfl

theorem length_le_of_run (h : machine.run s es = some t) : s.calls.length ≤ t.calls.length :=
  machine.run_invariant (I := fun t => s.calls.length ≤ t.calls.length)
    (fun _ _ _ hle h => hle.trans (length_le_of_step h)) le_rfl h

/-- A write adds one to the count that its call has read. -/
theorem storeNextCount_of_atMost {d count : Int} {i : Nat} (h : AtMost d s)
    (hfits : d + s.calls.length ≤ 2147483647) (hcall : s.calls[i]? = some (.writing count))
    (now : Int) :
    MemoryRepository.getConversationCount
      (MemoryRepository.storeNextCount now count s.table) = count + 1 := by
  obtain ⟨hpos, hle⟩ := h.read count (List.mem_of_getElem? hcall)
  have hlt := finished_lt hcall
  exact MemoryRepository.getConversationCount_storeNextCount hpos (by omega)

/-- A write keeps the count at most `d'` plus the number of calls that have written, if what its call
has read was. -/
theorem atMost_write {d d' count : Int} {i : Nat} (h : AtMost d s)
    (hfits : d + s.calls.length ≤ 2147483647) (hcall : s.calls[i]? = some (.writing count))
    (now : Int) (hd : d ≤ d' + 1) (hcount : count ≤ d' + s.finished) :
    AtMost d'
      { table := MemoryRepository.storeNextCount now count s.table,
        calls := s.calls.set i .finished } := by
  have hstored := storeNextCount_of_atMost h hfits hcall now
  have hpos := (h.read count (List.mem_of_getElem? hcall)).1
  refine ⟨?_, ?_, fun count' hmem => ?_⟩
  · rw [finished, finished_write hcall, hstored]
    omega
  · rw [hstored]
    omega
  · rw [finished, finished_write hcall]
    rcases List.mem_or_eq_of_mem_set hmem with hold | hnew
    · have hread := h.read count' hold
      omega
    · cases hnew

/-- No step gets ahead of the calls that have written. -/
theorem atMost_of_step {d : Int} (h : AtMost d s) (hfits : d + s.calls.length ≤ 2147483647)
    (hforeign : e.Foreign) (hstep : machine.step s e = some t) : AtMost d t := by
  rcases step_cases hstep with ⟨-, rfl⟩ | ⟨i, -, hcall, rfl⟩ | ⟨i, now, count, -, hcall, rfl⟩ |
    ⟨now, key, value, rfl, rfl⟩
  · have hsame : (s.calls ++ [IncrementStage.reading]).count IncrementStage.finished = s.finished := by
      rw [List.count_append]
      rfl
    refine ⟨?_, h.nonneg, fun count hmem => ?_⟩
    · rw [finished, hsame]
      exact h.stored
    · rw [finished, hsame]
      exact h.read count (by simpa using hmem)
  · refine ⟨?_, h.nonneg, fun count hmem => ?_⟩
    · rw [finished, finished_read hcall]
      exact h.stored
    · rw [finished, finished_read hcall]
      rcases List.mem_or_eq_of_mem_set hmem with hold | hnew
      · exact h.read count hold
      · cases hnew
        exact ⟨h.nonneg, h.stored⟩
  · have hle := (h.read count (List.mem_of_getElem? hcall)).2
    exact atMost_write h hfits hcall now (by omega) hle
  · have hsame : MemoryRepository.getConversationCount
        (MemoryRepository.setPreference now key value s.table) =
        MemoryRepository.getConversationCount s.table :=
      MemoryRepository.getConversationCount_setPreference_of_ne hforeign now value
    exact ⟨hsame ▸ h.stored, hsame ▸ h.nonneg, h.read⟩

/-! ## The law of the counter -/

/-- Every count so far was counted. -/
structure InStep (c : Int) (s : Preferences) : Prop extends AtMost c s where
  exact : MemoryRepository.getConversationCount s.table = c + s.finished

theorem inStep_of_step (h : InStep c s) (hfits : c + s.calls.length ≤ 2147483647)
    (hforeign : e.Foreign) (hundisturbed : Undisturbed s e) (hstep : machine.step s e = some t) :
    InStep c t := by
  refine ⟨atMost_of_step h.toAtMost hfits hforeign hstep, ?_⟩
  rcases step_cases hstep with ⟨-, rfl⟩ | ⟨i, -, hcall, rfl⟩ | ⟨i, now, count, rfl, hcall, rfl⟩ |
    ⟨now, key, value, rfl, rfl⟩
  · rw [finished, List.count_append]
    exact h.exact
  · rw [finished, finished_read hcall]
    exact h.exact
  · have hread : s.calls[i]? = some (.writing (MemoryRepository.getConversationCount s.table)) :=
      hundisturbed
    rw [finished, finished_write hread, storeNextCount_of_atMost h.toAtMost hfits hcall]
    rw [hcall, Option.some.injEq, IncrementStage.writing.injEq, h.exact] at hread
    omega
  · rw [MemoryRepository.getConversationCount_setPreference_of_ne hforeign]
    exact h.exact

/-- After a disturbed write, the count is behind. -/
theorem behind_of_disturbed (h : InStep c s) (hfits : c + s.calls.length ≤ 2147483647)
    (hdisturbed : ¬ Undisturbed s e) (hstep : machine.step s e = some t) : AtMost (c - 1) t := by
  rcases step_cases hstep with ⟨rfl, -⟩ | ⟨_, rfl, -⟩ | ⟨i, now, count, rfl, hcall, rfl⟩ |
    ⟨_, _, _, rfl, -⟩
  · exact absurd trivial hdisturbed
  · exact absurd trivial hdisturbed
  · have hne : count ≠ MemoryRepository.getConversationCount s.table :=
      fun heq => hdisturbed (show s.calls[i]? = some (.writing _) from heq ▸ hcall)
    have hle := (h.read count (List.mem_of_getElem? hcall)).2
    have hexact := h.exact
    exact atMost_write h.toAtMost hfits hcall now (by omega) (by omega)
  · exact absurd trivial hdisturbed

theorem inStep_of_run (h : InStep c s) (hforeign : ∀ e ∈ es, e.Foreign)
    (halong : machine.Along Undisturbed s es) (hrun : machine.run s es = some t)
    (hfits : c + t.calls.length ≤ 2147483647) : InStep c t := by
  have hall := Machine.along_and ((Machine.along_const_iff hrun).mpr hforeign) halong
  refine machine.run_invariant_along
    (I := fun s => c + s.calls.length ≤ 2147483647 → InStep c s) ?_ hall (fun _ => h) hrun hfits
  rintro s e t hs ⟨hforeign, hundisturbed⟩ hstep hfits
  have hle := length_le_of_step hstep
  exact inStep_of_step (hs (by omega)) (by omega) hforeign hundisturbed hstep

theorem atMost_of_run {d : Int} (h : AtMost d s) (hforeign : ∀ e ∈ es, e.Foreign)
    (hrun : machine.run s es = some t) (hfits : d + t.calls.length ≤ 2147483647) :
    AtMost d t := by
  refine machine.run_invariant_along
    (I := fun s => d + s.calls.length ≤ 2147483647 → AtMost d s) ?_
    ((Machine.along_const_iff hrun).mpr hforeign) (fun _ => h) hrun hfits
  intro s e t hs hforeign hstep hfits
  have hle := length_le_of_step hstep
  exact atMost_of_step (hs (by omega)) (by omega) hforeign hstep

/--
**The counter loses nothing exactly when nobody writes between the two halves of a call.**

In every run there is at most one row per key. In a run in which only the calls write the count and
all of them have finished, the count has grown by their number if and only if every write found the
count that its call had read.
-/
theorem conversationCount_iff (hkeys : s.table.UniqueKeys) (hrun : machine.run s es = some t) :
    t.table.UniqueKeys ∧
      ∀ c, MemoryRepository.getConversationCount s.table = c → 0 ≤ c → s.calls = [] →
        (∀ e ∈ es, e.Foreign) → (∀ call ∈ t.calls, call = .finished) →
        c + t.calls.length ≤ 2147483647 →
        (MemoryRepository.getConversationCount t.table = c + t.calls.length ↔
          machine.Along Undisturbed s es) := by
  refine ⟨uniqueKeys_of_run hkeys hrun, fun c hcount hc hcalls hforeign hdone hfits => ?_⟩
  have hinit : InStep c s := by
    have hzero : s.finished = 0 := by rw [finished, hcalls]; rfl
    refine ⟨⟨by omega, by omega, ?_⟩, by omega⟩
    rw [hcalls]
    exact fun count hmem => absurd hmem List.not_mem_nil
  have hfinished : t.finished = t.calls.length :=
    List.count_eq_length.mpr fun call hcall => (hdone call hcall).symm
  constructor
  · intro hright
    by_contra hnot
    obtain ⟨xs, e, ys, m, rfl, hm, halong, hdisturbed⟩ := Machine.exists_first_violation hnot
    obtain ⟨m', hstep, hrest⟩ := Machine.step_of_run machine hrun hm
    have hle' := length_le_of_run hrest
    have hle := length_le_of_step hstep
    have hmInStep := inStep_of_run hinit
      (fun e he => hforeign e (List.mem_append_left _ he)) halong hm (by omega)
    have hbehind := behind_of_disturbed hmInStep (by omega) hdisturbed hstep
    have hend := atMost_of_run hbehind
      (fun e he => hforeign e (List.mem_append_right _ (List.mem_cons_of_mem _ he))) hrest
      (by omega)
    have hstored := hend.stored
    omega
  · intro halong
    have hend := inStep_of_run hinit hforeign halong hrun hfits
    rw [hend.exact, hfinished]

/-! ### Two calls -/

def noPreferences : Preferences := { table := { rows := [], lastId := 0 }, calls := [] }

/-- Two calls, one after the other. -/
def inTurn : List Event :=
  [.incrementConversationCount, .incrementConversationCount, .read 0, .write 0 0, .read 1,
    .write 1 0]

/-- Both calls read before either of them writes. -/
def together : List Event :=
  [.incrementConversationCount, .incrementConversationCount, .read 0, .read 1, .write 0 0,
    .write 1 0]

theorem conversationCount_iff_inTurn :
    (machine.run noPreferences inTurn).map
      (fun s => MemoryRepository.getConversationCount s.table) = some 2 := by
  obtain ⟨t, ht⟩ : ∃ t, machine.run noPreferences inTurn = some t := ⟨_, rfl⟩
  have hdone : ∀ call ∈ t.calls, call = .finished := by
    cases ht
    decide
  have hlength : t.calls.length = 2 := by
    cases ht
    rfl
  have hlaw := (conversationCount_iff (by decide) ht).2 0 (by decide) (by decide) rfl
    (by simp [inTurn, Event.Foreign]) hdone (by rw [hlength]; decide)
  have halong : machine.Along Undisturbed noPreferences inTurn := by decide
  rw [ht, Option.map_some, hlaw.mpr halong, hlength]
  rfl

theorem together_loses_increment :
    ¬ ∀ (es : List Event) (t : Preferences), machine.run noPreferences es = some t →
      (∀ e ∈ es, e.Foreign) → (∀ call ∈ t.calls, call = .finished) →
      t.calls.length ≤ 2147483647 →
      MemoryRepository.getConversationCount t.table = t.calls.length := by
  intro h
  have hcount := h together _ rfl (by simp [together, Event.Foreign]) (by decide) (by decide)
  revert hcount
  decide

end Preferences

end Kaede
