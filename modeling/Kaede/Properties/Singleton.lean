import Kaede.Data.KaedeDatabase

/-!
# When the database is a singleton

`getDatabase` checks `INSTANCE` before it enters `synchronized`, and not again inside. So every
call that finds `null` builds, and there is one database exactly when one call finds `null`.

* `committed_of_transition` — finding `null`, and nothing else, commits to one more build
* `singleton_iff` — one build and one instance, exactly in the runs in which one call finds `null`
-/

namespace Kaede

open Infra

namespace KaedeDatabase

variable {s t : KaedeDatabase} {e : Event} {es : List Event}

/-! ## The law -/

/-- Room has built at most once, and all calls that have returned have returned the same. -/
def Singleton (s : KaedeDatabase) : Prop :=
  s.builds ≤ 1 ∧
    ∀ x y, .returned x ∈ s.calls → .returned y ∈ s.calls → x = y

/-- A call finds `null` only when no other call has. -/
def OneFindsNull (s : KaedeDatabase) : Event → Prop
  | .getDatabase => True
  | .advance i =>
    s.calls[i]? = some .reading → s.INSTANCE = none → ∀ stage ∈ s.calls, stage = .reading

instance (s : KaedeDatabase) : ∀ e, Decidable (OneFindsNull s e)
  | .getDatabase => .isTrue trivial
  | .advance i => inferInstanceAs (Decidable
      (s.calls[i]? = some .reading → s.INSTANCE = none → ∀ stage ∈ s.calls, stage = .reading))

/-! ## What holds in every run -/

theorem underway_set {i : Nat} {old : GetDatabaseStage} {calls : List GetDatabaseStage}
    (hi : calls[i]? = some old) (new : GetDatabaseStage) :
    (calls.set i new).countP (·.isUnderway) + old.isUnderway.toNat =
      calls.countP (·.isUnderway) + new.isUnderway.toNat := by
  obtain ⟨hlt, hget⟩ := List.getElem?_eq_some_iff.mp hi
  have hpos : old.isUnderway = true → 0 < calls.countP (·.isUnderway) :=
    fun hold => List.countP_pos_iff.mpr ⟨old, List.mem_of_getElem? hi, hold⟩
  rw [List.countP_set hlt, hget]
  cases hold : old.isUnderway with
  | false => cases new.isUnderway <;> simp
  | true =>
    have hone := hpos hold
    cases new.isUnderway <;> simp <;> omega

/-- The step reads `null` in `INSTANCE`. -/
def FindsNull (s : KaedeDatabase) (e : Event) : Prop :=
  ∃ i, e = .advance i ∧ s.calls[i]? = some .reading ∧ s.INSTANCE = none

theorem not_findsNull {i : Nat} {stage : GetDatabaseStage} (hi : s.calls[i]? = some stage)
    (hne : stage ≠ .reading) : ¬ FindsNull s (.advance i) := by
  rintro ⟨j, he, hj, -⟩
  cases he
  rw [hi, Option.some.injEq] at hj
  exact hne hj

/-- Finding `null` commits to one more build. Nothing else changes what is committed. -/
theorem committed_of_transition (h : Transition s e t) :
    FindsNull s e ∧ t.committed = s.committed + 1 ∨
      ¬ FindsNull s e ∧ t.committed = s.committed := by
  cases h with
  | called =>
    refine Or.inr ⟨fun ⟨i, he, _⟩ => Event.noConfusion he, ?_⟩
    simp [committed, List.countP_append, GetDatabaseStage.isUnderway]
  | found i database hi hread =>
    have hset : _ + 0 = _ + 0 := underway_set hi (.returned database)
    refine Or.inr ⟨fun ⟨j, _, _, hnull⟩ => Option.some_ne_none database (hread ▸ hnull), ?_⟩
    simp only [committed]
    omega
  | foundNull i hi hread =>
    have hset : _ + 0 = _ + 1 := underway_set hi .entering
    refine Or.inl ⟨⟨i, rfl, hi, hread⟩, ?_⟩
    simp only [committed]
    omega
  | entered i hi hfree =>
    have hset : _ + 1 = _ + 1 := underway_set hi .building
    refine Or.inr ⟨not_findsNull hi (by simp), ?_⟩
    simp only [committed]
    omega
  | built i hi =>
    have hset : _ + 1 = _ + 0 := underway_set hi (.writing s.builds)
    refine Or.inr ⟨not_findsNull hi (by simp), ?_⟩
    simp only [committed]
    omega
  | written i database hi =>
    have hset : _ + 0 = _ + 0 := underway_set hi (.leaving database)
    refine Or.inr ⟨not_findsNull hi (by simp), ?_⟩
    simp only [committed]
    omega
  | left i database hi =>
    have hset : _ + 0 = _ + 0 := underway_set hi (.returned database)
    refine Or.inr ⟨not_findsNull hi (by simp), ?_⟩
    simp only [committed]
    omega

/-- The database that a call has built or found. -/
def database : GetDatabaseStage → Option Nat
  | .writing x | .leaving x | .returned x => some x
  | _ => none

/-- The call has seen or made `INSTANCE` something other than `null`. -/
def Published : GetDatabaseStage → Prop
  | .leaving _ | .returned _ => True
  | _ => False

/-- Every database was built, by a call that has found `null`, and a call returns only what was
published. -/
structure Sound (s : KaedeDatabase) : Prop where
  instance_lt : ∀ x, s.INSTANCE = some x → x < s.builds
  database_lt : ∀ stage ∈ s.calls, ∀ x, database stage = some x → x < s.builds
  published : ∀ stage ∈ s.calls, Published stage → s.INSTANCE ≠ none
  builder : 0 < s.builds → ∃ stage ∈ s.calls, stage ≠ .reading

theorem sound_init : Sound init where
  instance_lt := fun x h => by cases h
  database_lt := fun stage hstage => absurd hstage List.not_mem_nil
  published := fun stage hstage => absurd hstage List.not_mem_nil
  builder := fun h => absurd h (Nat.lt_irrefl 0)

/-- What a step of one call has to keep. -/
theorem Sound.advance (h : Sound s) {i : Nat} {old new : GetDatabaseStage}
    (hi : s.calls[i]? = some old) (hcalls : t.calls = s.calls.set i new)
    (hbuilds : s.builds ≤ t.builds) (hkeep : s.INSTANCE ≠ none → t.INSTANCE ≠ none)
    (hinstance : ∀ x, t.INSTANCE = some x → x < t.builds)
    (hdatabase : ∀ x, database new = some x → x < t.builds)
    (hpublished : Published new → t.INSTANCE ≠ none) (hnew : new ≠ .reading) : Sound t where
  instance_lt := hinstance
  database_lt := by
    intro stage hstage x hx
    rw [hcalls] at hstage
    rcases List.mem_or_eq_of_mem_set hstage with hold | rfl
    · exact Nat.lt_of_lt_of_le (h.database_lt stage hold x hx) hbuilds
    · exact hdatabase x hx
  published := by
    intro stage hstage hpub
    rw [hcalls] at hstage
    rcases List.mem_or_eq_of_mem_set hstage with hold | rfl
    · exact hkeep (h.published stage hold hpub)
    · exact hpublished hpub
  builder := by
    obtain ⟨hlt, -⟩ := List.getElem?_eq_some_iff.mp hi
    exact fun _ => ⟨new, hcalls ▸ List.mem_set hlt new, hnew⟩

theorem sound_of_transition (h : Sound s) (hstep : Transition s e t) : Sound t := by
  cases hstep with
  | called =>
    have hmem : ∀ stage ∈ s.calls ++ [GetDatabaseStage.reading],
        stage ∈ s.calls ∨ stage = .reading := fun stage hstage => by simpa using hstage
    refine ⟨h.instance_lt, fun stage hstage x hx => ?_, fun stage hstage hpub => ?_, fun hpos => ?_⟩
    · rcases hmem stage hstage with hold | rfl
      · exact h.database_lt stage hold x hx
      · cases hx
    · rcases hmem stage hstage with hold | rfl
      · exact h.published stage hold hpub
      · exact absurd hpub id
    · obtain ⟨stage, hstage, hne⟩ := h.builder hpos
      exact ⟨stage, List.mem_append_left _ hstage, hne⟩
  | found i x hi hread =>
    refine h.advance hi rfl (Nat.le_refl _) id h.instance_lt (fun y hy => ?_) (fun _ => ?_) (by simp)
    · cases hy
      exact h.instance_lt x hread
    · rw [hread]
      exact Option.some_ne_none x
  | foundNull i hi hread =>
    exact h.advance hi rfl (Nat.le_refl _) id h.instance_lt (fun y hy => by cases hy)
      (fun hpub => absurd hpub id) (by simp)
  | entered i hi hfree =>
    exact h.advance hi rfl (Nat.le_refl _) id h.instance_lt (fun y hy => by cases hy)
      (fun hpub => absurd hpub id) (by simp)
  | built i hi =>
    refine h.advance hi rfl (Nat.le_succ _) id
      (fun x hx => Nat.lt_succ_of_lt (h.instance_lt x hx)) (fun y hy => ?_)
      (fun hpub => absurd hpub id) (by simp)
    cases hy
    exact Nat.lt_succ_self _
  | written i x hi =>
    have hlt := h.database_lt _ (List.mem_of_getElem? hi) x rfl
    refine h.advance hi rfl (Nat.le_refl _) (fun _ => Option.some_ne_none x) (fun y hy => ?_)
      (fun y hy => ?_) (fun _ => Option.some_ne_none x) (by simp)
    · cases hy
      exact hlt
    · cases hy
      exact hlt
  | left i x hi =>
    have hmem := List.mem_of_getElem? hi
    refine h.advance hi rfl (Nat.le_refl _) id h.instance_lt (fun y hy => ?_)
      (fun _ => h.published _ hmem trivial) (by simp)
    cases hy
    exact h.database_lt _ hmem x rfl

theorem sound_of_run (h : Sound s) (hrun : machine.run s es = some t) : Sound t :=
  machine.run_invariant (fun _ _ _ h hstep => sound_of_transition h (transition_of_step hstep)) h
    hrun

/-! ## One call that finds `null` -/

theorem committed_le_of_run (hrun : machine.run s es = some t) : s.committed ≤ t.committed := by
  refine machine.run_invariant (I := fun t => s.committed ≤ t.committed) ?_ (Nat.le_refl _) hrun
  intro s' e t' hle hstep
  rcases committed_of_transition (transition_of_step hstep) with ⟨-, hmore⟩ | ⟨-, hsame⟩ <;> omega

/-- While nobody has found `null`, nothing is committed. -/
theorem Sound.committed_eq_zero (h : Sound s) (hreading : ∀ stage ∈ s.calls, stage = .reading) :
    s.committed = 0 := by
  have hunderway : s.calls.countP (·.isUnderway) = 0 :=
    List.countP_eq_zero.mpr fun stage hstage => by rw [hreading stage hstage]; simp [
      GetDatabaseStage.isUnderway]
  have hbuilds : s.builds = 0 := by
    by_contra hne
    obtain ⟨stage, hstage, hnot⟩ := h.builder (Nat.pos_of_ne_zero hne)
    exact hnot (hreading stage hstage)
  rw [committed, hbuilds, hunderway]

/-- A call that has found `null`, while `INSTANCE` is still `null`, is committed to its build. -/
theorem Sound.committed_pos (h : Sound s) (hnull : s.INSTANCE = none) {stage : GetDatabaseStage}
    (hstage : stage ∈ s.calls) (hne : stage ≠ .reading) : 0 < s.committed := by
  have hunderway : stage.isUnderway = true → 0 < s.calls.countP (·.isUnderway) :=
    fun hstageUnderway => List.countP_pos_iff.mpr ⟨stage, hstage, hstageUnderway⟩
  unfold committed
  cases stage with
  | reading => exact absurd rfl hne
  | entering => exact Nat.add_pos_right _ (hunderway rfl)
  | building => exact Nat.add_pos_right _ (hunderway rfl)
  | writing x => exact Nat.add_pos_left (Nat.zero_lt_of_lt (h.database_lt _ hstage x rfl)) _
  | leaving x => exact absurd hnull (h.published _ hstage trivial)
  | returned x => exact absurd hnull (h.published _ hstage trivial)

/-- One commitment is one database. -/
theorem Sound.singleton (h : Sound s) (hone : s.committed ≤ 1) : Singleton s := by
  have hbuilds : s.builds ≤ 1 := Nat.le_trans (Nat.le_add_right _ _) hone
  refine ⟨hbuilds, fun x y hx hy => ?_⟩
  have hxlt := h.database_lt _ hx x rfl
  have hylt := h.database_lt _ hy y rfl
  omega

/--
**There is one database exactly when one call finds `null`.**

In a run in which a call finds `null` only when no other has, Room builds at most once and all calls
return the same. A run in which this is so once every call has returned is such a run.
-/
theorem singleton_iff (hrun : machine.run init es = some t) :
    (machine.Along OneFindsNull init es → Singleton t) ∧
      ((∀ stage ∈ t.calls, ∃ x, stage = .returned x) →
        (Singleton t ↔ machine.Along OneFindsNull init es)) := by
  have hsound := sound_of_run sound_init hrun
  have hcondition : machine.Along OneFindsNull init es → Singleton t := by
    intro halong
    refine hsound.singleton (machine.run_invariant_along (I := fun s => Sound s ∧ s.committed ≤ 1)
      ?_ halong ⟨sound_init, Nat.zero_le _⟩ hrun).2
    rintro s e s' ⟨hs, hle⟩ hone hstep
    have htransition := transition_of_step hstep
    refine ⟨sound_of_transition hs htransition, ?_⟩
    rcases committed_of_transition htransition with ⟨⟨i, rfl, hi, hnull⟩, hmore⟩ | ⟨-, hsame⟩
    · have hzero := hs.committed_eq_zero (hone hi hnull)
      omega
    · omega
  refine ⟨hcondition, fun hreturned => ⟨fun hsingle => ?_, hcondition⟩⟩
  by_contra hnot
  obtain ⟨xs, e, ys, m, rfl, hm, -, hviolated⟩ := Machine.exists_first_violation hnot
  obtain ⟨m', hstep, hrest⟩ := Machine.step_of_run machine hrun hm
  have hle := committed_le_of_run hrest
  have hdone : t.calls.countP (·.isUnderway) = 0 := by
    refine List.countP_eq_zero.mpr fun stage hstage => ?_
    obtain ⟨x, rfl⟩ := hreturned stage hstage
    exact Bool.false_ne_true
  have hbuilds := hsingle.1
  cases e with
  | getDatabase => exact hviolated trivial
  | advance i =>
    -- somebody has found `null` already, so this call commits to a second build
    unfold OneFindsNull at hviolated
    push Not at hviolated
    obtain ⟨hi, hnull, stage, hstage, hne⟩ := hviolated
    have hpos := (sound_of_run sound_init hm).committed_pos hnull hstage hne
    have hsecond : m'.committed = m.committed + 1 := by
      rcases committed_of_transition (transition_of_step hstep) with ⟨-, hmore⟩ | ⟨hnot, -⟩
      · exact hmore
      · exact absurd ⟨i, rfl, hi, hnull⟩ hnot
    have hend : t.committed = t.builds := by rw [committed, hdone, Nat.add_zero]
    omega

/-! ### Two threads -/

/-- The second thread calls when the first is done. -/
def oneAfterTheOther : List Event :=
  .getDatabase :: List.replicate 5 (.advance 0) ++ [.getDatabase, .advance 1]

/-- Both threads find `null`, and then build one after the other. -/
def bothFindNull : List Event :=
  [.getDatabase, .getDatabase, .advance 0, .advance 1] ++ List.replicate 4 (.advance 0) ++
    List.replicate 4 (.advance 1)

theorem singleton_iff_oneAfterTheOther :
    (machine.run init oneAfterTheOther).map (·.calls) = some [.returned 0, .returned 0] ∧
      ∃ t, machine.run init oneAfterTheOther = some t ∧ Singleton t := by
  obtain ⟨t, ht⟩ : ∃ t, machine.run init oneAfterTheOther = some t := ⟨_, rfl⟩
  exact ⟨by decide, t, ht, (singleton_iff ht).1 (by decide)⟩

theorem bothFindNull_builds_twice :
    ¬ ∀ es t, machine.run init es = some t → Singleton t := by
  intro h
  have hbuilds := (h bothFindNull _ rfl).1
  revert hbuilds
  decide

end KaedeDatabase

end Kaede
