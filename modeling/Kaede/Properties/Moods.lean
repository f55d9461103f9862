import Kaede.Ai.PersonalityCalls

/-!
# What a triggered mood and a read of the mood do

The mood decays when it is read, and only `getCurrentMood` reads it so. Until then an old mood stays
stored. `updateMood` compares the new mood with the stored one, and the other two getters show it.

* `reportsDominant_iff` — a triggered mood is reported unless it is the stored one and has decayed
* `answers_inserted` — inserted reads change no answer and every intensity fits its mood, as long as no
  call that shows the stored mood or compares with it finds one that has decayed, and none shows a
  neutral mood that was given an intensity by hand
-/

namespace Kaede

open Infra

namespace PersonalityManager

/-! ## A triggered mood -/

/--
**When a triggered mood is the mood reported.**

After any history of calls, a message with a trigger is followed within five minutes by its dominant
mood exactly when that mood is not the stored one, or the stored one has not decayed by then.
-/
theorem reportsDominant_iff (created : Int) (history : List TimedCall) {userMessage : Text}
    {t t' : Int} (htriggers : Triggers (lowercase userMessage)) (hsoon : t' ≤ t + moodDecayTimeMs) :
    some (((after created history).updateMood t userMessage).getCurrentMood t').1 =
        dominantMood (lowercase userMessage) ↔
      dominantMood (lowercase userMessage) ≠ some (after created history).currentMood ∨
        t' ≤ (after created history).lastMoodChangeTime + moodDecayTimeMs := by
  generalize after created history = pm
  obtain ⟨mood, hmood⟩ := exists_dominantMood (lowercase userMessage)
  have hne := dominantMood_ne_normal hmood
  obtain ⟨intensity, -, -, hupdate⟩ := updateMood_of_triggers t pm htriggers hmood
  rw [hupdate, hmood]
  by_cases hstored : mood = pm.currentMood
  · rw [if_neg (not_not.mpr hstored)]
    by_cases hstale : pm.Stale t'
    · -- the timer was not restarted, and it has run out
      rw [getCurrentMood_of_stale hstale]
      have hlate := hstale.2
      refine iff_of_false (fun h => hne (Option.some.inj h).symm) ?_
      rintro (h | h)
      · exact h (congrArg some hstored)
      · omega
    · rw [getCurrentMood_of_not_stale hstale, hstored]
      refine iff_of_true rfl (Or.inr ?_)
      by_contra hlate
      exact hstale ⟨hstored ▸ hne, by omega⟩
  · rw [if_pos hstored]
    have hfresh : ¬ Stale ⟨mood, t, intensity⟩ t' := by
      rintro ⟨-, hlate⟩
      dsimp only at hlate
      omega
    rw [getCurrentMood_of_not_stale hfresh]
    exact iff_of_true rfl (Or.inl fun h => hstored (Option.some.inj h))

/-- "I love you" at the start. -/
def loveAtFirst : List TimedCall := [⟨0, .updateMood (utf16 "I love you"), false⟩]

theorem reportsDominant_iff_soon :
    some (((after 0 loveAtFirst).updateMood 60000 (utf16 "you are cute")).getCurrentMood 120000).1 =
      dominantMood (lowercase (utf16 "you are cute")) :=
  (reportsDominant_iff 0 loveAtFirst (by decide +kernel) (by decide)).mpr (by decide +kernel)

/-- The second "I love you" comes when the first has decayed, and is lost. -/
theorem secondLove_not_reported :
    ¬ ∀ (created : Int) (history : List TimedCall) (userMessage : Text) (t t' : Int),
      (created :: history.map (·.now) ++ [t, t']).Pairwise (· ≤ ·) →
      Triggers (lowercase userMessage) → t' ≤ t + moodDecayTimeMs →
      some (((after created history).updateMood t userMessage).getCurrentMood t').1 =
        dominantMood (lowercase userMessage) := by
  intro h
  have hlost := h 0 loveAtFirst (utf16 "I love you") 360000 360000 (by decide) (by decide +kernel)
    (by decide)
  revert hlost
  decide +kernel

/-! ## Inserted reads -/

/-- The call neither shows a stale mood nor compares with it. -/
def Fresh (pm : PersonalityManager) (now : Int) : Call → Prop
  | .updateMood userMessage =>
    Triggers (lowercase userMessage) →
      dominantMood (lowercase userMessage) = some pm.currentMood → ¬ pm.Stale now
  | .getMoodIntensity => pm.Stale now → pm.moodIntensity = 0
  | .getMoodDescription => ¬ pm.Stale now
  | _ => True

instance (pm : PersonalityManager) (now : Int) : ∀ call, Decidable (pm.Fresh now call)
  | .updateMood userMessage => inferInstanceAs (Decidable
      (Triggers (lowercase userMessage) →
        dominantMood (lowercase userMessage) = some pm.currentMood → ¬ pm.Stale now))
  | .getMoodIntensity => inferInstanceAs (Decidable (pm.Stale now → pm.moodIntensity = 0))
  | .getMoodDescription => inferInstanceAs (Decidable (¬ pm.Stale now))
  | .getCurrentMood => .isTrue trivial
  | .setMood _ _ => .isTrue trivial
  | .resetMood => .isTrue trivial

/-- Two managers that differ at most by a decay that one of them has already seen. -/
def Alike (now : Int) (base full : PersonalityManager) : Prop :=
  full = base ∨ base.Stale now ∧ full = base.decayed

variable {base full : PersonalityManager} {now later : Int}

theorem Alike.mono (h : Alike now base full) (hle : now ≤ later) : Alike later base full := by
  rcases h with rfl | ⟨hstale, rfl⟩
  · exact Or.inl rfl
  · exact Or.inr ⟨hstale.mono hle, rfl⟩

/-- An inserted read can only see the decay first. -/
theorem Alike.insert {call : Call} (h : Alike now base full) (hread : call.IsRead) :
    Alike now base (full.perform now call) := by
  cases call with
  | getCurrentMood =>
    show Alike now base (full.getCurrentMood now).2
    rcases h with rfl | ⟨hstale, rfl⟩
    · by_cases hstale : full.Stale now
      · rw [getCurrentMood_of_stale hstale]
        exact Or.inr ⟨hstale, rfl⟩
      · rw [getCurrentMood_of_not_stale hstale]
        exact Or.inl rfl
    · rw [getCurrentMood_of_not_stale (not_stale_decayed base now)]
      exact Or.inr ⟨hstale, rfl⟩
  | getMoodIntensity => exact h
  | getMoodDescription => exact h
  | updateMood userMessage => exact absurd hread id
  | setMood mood intensity => exact absurd hread id
  | resetMood => exact absurd hread id

/-- A fresh call answers alike and leaves alike managers. -/
theorem Alike.perform {call : Call} (h : Alike now base full) (hfresh : base.Fresh now call) :
    full.answer now call = base.answer now call ∧
      Alike now (base.perform now call) (full.perform now call) := by
  rcases h with rfl | ⟨hstale, rfl⟩
  · exact ⟨rfl, Or.inl rfl⟩
  cases call with
  | updateMood userMessage =>
    refine ⟨rfl, ?_⟩
    show Alike now (base.updateMood now userMessage) (base.decayed.updateMood now userMessage)
    by_cases htriggers : Triggers (lowercase userMessage)
    · obtain ⟨mood, hmood⟩ := exists_dominantMood (lowercase userMessage)
      have hother : mood ≠ base.currentMood :=
        fun heq => hfresh htriggers (heq ▸ hmood) hstale
      have hnormal : mood ≠ base.decayed.currentMood := dominantMood_ne_normal hmood
      rw [updateMood_eq, updateMood_eq, if_pos htriggers, if_pos htriggers, hmood,
        Option.getD_some, if_pos hother, if_pos hnormal]
      exact Or.inl rfl
    · rw [updateMood_of_not_triggers now _ htriggers, updateMood_of_not_triggers now _ htriggers]
      exact Or.inr ⟨hstale, rfl⟩
  | getCurrentMood =>
    have hnot := not_stale_decayed base now
    refine ⟨?_, ?_⟩
    · rw [answer, answer, getCurrentMood_of_stale hstale, getCurrentMood_of_not_stale hnot]
      rfl
    · show Alike now (base.getCurrentMood now).2 (base.decayed.getCurrentMood now).2
      rw [getCurrentMood_of_stale hstale, getCurrentMood_of_not_stale hnot]
      exact Or.inl rfl
  | getMoodIntensity =>
    have hzero : base.moodIntensity = 0 := hfresh hstale
    refine ⟨?_, Or.inr ⟨hstale, rfl⟩⟩
    rw [answer, answer, getMoodIntensity, getMoodIntensity, hzero]
    rfl
  | getMoodDescription => exact absurd hstale hfresh
  | setMood mood intensity => exact ⟨rfl, Or.inl rfl⟩
  | resetMood => exact ⟨rfl, Or.inl rfl⟩

theorem answers_of_alike {calls : List TimedCall} (h : Alike now base full)
    (hclock : (now :: calls.map (·.now)).Pairwise (· ≤ ·))
    (hreads : ∀ c ∈ calls, c.inserted = true → c.call.IsRead)
    (hfresh : machine.Along (fun pm c => pm.Fresh c.now c.call) base
      (calls.filter fun c => !c.inserted)) :
    full.answers calls = base.answers (calls.filter fun c => !c.inserted) := by
  induction calls generalizing now base full with
  | nil => rfl
  | cons c calls ih =>
    rw [List.map_cons, List.pairwise_cons, List.forall_mem_cons] at hclock
    obtain ⟨⟨hle, -⟩, hclock⟩ := hclock
    obtain ⟨hread, hreads⟩ := List.forall_mem_cons.mp hreads
    cases hinserted : c.inserted with
    | true =>
      rw [List.filter_cons_of_neg (by simp [hinserted])] at hfresh ⊢
      rw [answers_cons, if_pos hinserted, Option.toList_none, List.nil_append]
      exact ih ((h.mono hle).insert (hread hinserted)) hclock hreads hfresh
    | false =>
      have hnot : ¬ c.inserted = true := by rw [hinserted]; exact Bool.false_ne_true
      rw [List.filter_cons_of_pos (by simp [hinserted])] at hfresh ⊢
      obtain ⟨hhead, htail⟩ := Machine.along_cons.mp hfresh
      obtain ⟨hanswer, hnext⟩ := (h.mono hle).perform hhead
      rw [answers_cons, answers_cons, if_neg hnot, if_neg hnot, hanswer,
        ih hnext hclock hreads (htail _ rfl)]

/-! ## The intensity -/

/-- The call settles the mood, whatever it was before or while it stays. -/
def Call.decides : Call → Bool
  | .updateMood userMessage => decide (Triggers (lowercase userMessage))
  | .setMood _ _ | .resetMood => true
  | _ => false

/-- The last call that settled the mood was a `setMood` to the neutral one, with an intensity. -/
def NormalByHand (calls : List TimedCall) : Prop :=
  ∃ c ∈ (calls.filter fun c => c.call.decides).getLast?,
    ∃ intensity, 0 < intensity ∧ c.call = .setMood .normal intensity

/-- Reads settle nothing. -/
theorem normalByHand_filter {calls : List TimedCall}
    (hreads : ∀ c ∈ calls, c.inserted = true → c.call.IsRead) :
    NormalByHand (calls.filter fun c => !c.inserted) ↔ NormalByHand calls := by
  have hsame : (calls.filter fun c => !c.inserted).filter (fun c => c.call.decides) =
      calls.filter fun c => c.call.decides := by
    rw [List.filter_filter]
    refine List.filter_congr fun c hc => ?_
    cases hinserted : c.inserted with
    | false => rw [Bool.not_false, Bool.and_true]
    | true =>
      have hread := hreads c hc hinserted
      cases hcall : c.call with
      | getCurrentMood => rfl
      | getMoodIntensity => rfl
      | getMoodDescription => rfl
      | updateMood userMessage => simp [hcall, Call.IsRead] at hread
      | setMood mood intensity => simp [hcall, Call.IsRead] at hread
      | resetMood => simp [hcall, Call.IsRead] at hread
  rw [NormalByHand, hsame]
  rfl

theorem after_concat (created : Int) (calls : List TimedCall) (c : TimedCall) :
    after created (calls ++ [c]) = (after created calls).perform c.now c.call := by
  rw [after, List.foldl_append]
  rfl

theorem run_after (created : Int) (calls : List TimedCall) :
    machine.run (init created) calls = some (after created calls) := by
  induction calls using List.reverseRecOn with
  | nil => rfl
  | append_singleton calls c ih =>
    rw [after_concat]
    exact Machine.run_concat machine ih rfl

theorem intensity_bounds (created : Int) (calls : List TimedCall) :
    0 ≤ (after created calls).moodIntensity ∧ (after created calls).moodIntensity ≤ 1 := by
  induction calls using List.reverseRecOn with
  | nil => exact ⟨le_rfl, zero_le_one⟩
  | append_singleton calls c ih =>
    rw [after_concat]
    cases c.call with
    | updateMood userMessage =>
      by_cases htriggers : Triggers (lowercase userMessage)
      · obtain ⟨mood, hmood⟩ := exists_dominantMood (lowercase userMessage)
        obtain ⟨intensity, hpos, hone, hupdate⟩ :=
          updateMood_of_triggers c.now (after created calls) htriggers hmood
        rw [perform, hupdate]
        split
        · exact ⟨hpos, hone⟩
        · exact ih
      · rw [perform, updateMood_of_not_triggers c.now _ htriggers]
        exact ih
    | getCurrentMood =>
      rw [perform]
      by_cases hstale : (after created calls).Stale c.now
      · rw [getCurrentMood_of_stale hstale]
        exact ⟨le_rfl, zero_le_one⟩
      · rw [getCurrentMood_of_not_stale hstale]
        exact ih
    | getMoodIntensity => exact ih
    | getMoodDescription => exact ih
    | setMood mood intensity => exact ⟨le_max_left _ _, max_le zero_le_one (min_le_right _ _)⟩
    | resetMood => exact ⟨le_rfl, zero_le_one⟩

theorem normalByHand_concat_of_decides {calls : List TimedCall} {c : TimedCall}
    (h : c.call.decides = true) :
    NormalByHand (calls ++ [c]) ↔
      ∃ intensity, 0 < intensity ∧ c.call = .setMood .normal intensity := by
  rw [NormalByHand, List.filter_append,
    List.filter_cons_of_pos (p := fun c : TimedCall => c.call.decides) h, List.filter_nil,
    List.getLast?_concat]
  simp

theorem normalByHand_concat {calls : List TimedCall} {c : TimedCall}
    (h : c.call.decides = false) : NormalByHand (calls ++ [c]) ↔ NormalByHand calls := by
  rw [NormalByHand, List.filter_append, List.filter_cons_of_neg (by simp [h]), List.filter_nil,
    List.append_nil]
  rfl

/-- A stored neutral mood has no intensity, unless it was given one by hand. -/
theorem intensity_of_normal (created : Int) (calls : List TimedCall)
    (hnormal : (after created calls).currentMood = .normal) :
    (after created calls).moodIntensity = 0 ∨ NormalByHand calls := by
  induction calls using List.reverseRecOn with
  | nil => exact Or.inl rfl
  | append_singleton calls c ih =>
    rw [after_concat] at hnormal ⊢
    cases hcall : c.call with
    | updateMood userMessage =>
      rw [hcall, perform] at hnormal
      rw [perform]
      by_cases htriggers : Triggers (lowercase userMessage)
      · obtain ⟨mood, hmood⟩ := exists_dominantMood (lowercase userMessage)
        have hne := dominantMood_ne_normal hmood
        obtain ⟨intensity, -, -, hupdate⟩ :=
          updateMood_of_triggers c.now (after created calls) htriggers hmood
        rw [hupdate] at hnormal
        split at hnormal
        · exact absurd hnormal hne
        · next hsame => exact absurd ((not_not.mp hsame).trans hnormal) hne
      · rw [updateMood_of_not_triggers c.now _ htriggers] at hnormal ⊢
        rw [normalByHand_concat (by simp [hcall, Call.decides, htriggers])]
        exact ih hnormal
    | getCurrentMood =>
      rw [hcall, perform] at hnormal
      rw [perform, normalByHand_concat (by rw [hcall]; rfl)]
      by_cases hstale : (after created calls).Stale c.now
      · rw [getCurrentMood_of_stale hstale]
        exact Or.inl rfl
      · rw [getCurrentMood_of_not_stale hstale] at hnormal ⊢
        exact ih hnormal
    | getMoodIntensity =>
      rw [hcall, perform] at hnormal
      rw [normalByHand_concat (by rw [hcall]; rfl)]
      exact ih hnormal
    | getMoodDescription =>
      rw [hcall, perform] at hnormal
      rw [normalByHand_concat (by rw [hcall]; rfl)]
      exact ih hnormal
    | setMood mood intensity =>
      rw [hcall] at hnormal
      have hmood : mood = .normal := hnormal
      rw [normalByHand_concat_of_decides (by rw [hcall]; rfl)]
      rcases le_or_gt intensity 0 with hnone | hpos
      · exact Or.inl (max_eq_left ((min_le_left _ _).trans hnone))
      · exact Or.inr ⟨intensity, hpos, hmood ▸ hcall⟩
    | resetMood => exact Or.inl rfl

/-! ## Reads do not change the mood -/

/-- The answer holds the intensity. -/
def Call.showsIntensity : Call → Bool
  | .getMoodIntensity | .getMoodDescription => true
  | _ => false

/-- Whenever an intensity is shown, it lies between 0 and 1, and it is 0 if the mood at that time is
the neutral one. -/
def IntensitiesRight (created : Int) (calls : List TimedCall) : Prop :=
  ∀ earlier c rest, calls = earlier ++ c :: rest → c.call.showsIntensity = true →
    0 ≤ (after created earlier).getMoodIntensity ∧ (after created earlier).getMoodIntensity ≤ 1 ∧
      (((after created earlier).getCurrentMood c.now).1 = .normal →
        (after created earlier).getMoodIntensity = 0)

/-- No call of the sequence without the inserted reads meets a mood that has decayed unseen, no
inserted read shows the intensity of one, and no call shows the intensity of a neutral mood that was
given one by hand. -/
structure Undisturbed (created : Int) (calls base : List TimedCall) : Prop where
  fresh : machine.Along (fun pm c => pm.Fresh c.now c.call) (init created) base
  inserted : machine.Along (fun pm c => c.inserted = true → c.call.showsIntensity = true →
    pm.Stale c.now → pm.moodIntensity = 0) (init created) calls
  byHand : ∀ earlier c rest, calls = earlier ++ c :: rest → c.call.showsIntensity = true →
    ¬ NormalByHand earlier

/-- An intensity fits its mood if it belongs neither to a decayed mood nor to one set by hand. -/
theorem intensity_of_current {created : Int} {earlier : List TimedCall} {now : Int}
    (hstale : (after created earlier).Stale now → (after created earlier).moodIntensity = 0)
    (hbyHand : ¬ NormalByHand earlier) :
    0 ≤ (after created earlier).getMoodIntensity ∧ (after created earlier).getMoodIntensity ≤ 1 ∧
      (((after created earlier).getCurrentMood now).1 = .normal →
        (after created earlier).getMoodIntensity = 0) := by
  obtain ⟨hpos, hone⟩ := intensity_bounds created earlier
  refine ⟨hpos, hone, fun hnormal => ?_⟩
  by_cases hold : (after created earlier).Stale now
  · exact hstale hold
  · rw [getCurrentMood_of_not_stale hold] at hnormal
    exact (intensity_of_normal created earlier hnormal).resolve_right hbyHand

theorem Fresh.intensity {pm : PersonalityManager} {now : Int} {call : Call}
    (h : pm.Fresh now call) (hshows : call.showsIntensity = true) (hstale : pm.Stale now) :
    pm.moodIntensity = 0 := by
  cases call with
  | getMoodIntensity => exact h hstale
  | getMoodDescription => exact absurd hstale h
  | updateMood userMessage => cases hshows
  | getCurrentMood => cases hshows
  | setMood mood intensity => cases hshows
  | resetMood => cases hshows

/-- What the inserted reads have done so far: at most let the mood decay. -/
theorem alike_after {created now : Int} {earlier : List TimedCall}
    (hclock : (created :: earlier.map (·.now) ++ [now]).Pairwise (· ≤ ·))
    (hreads : ∀ c ∈ earlier, c.inserted = true → c.call.IsRead)
    (hfresh : machine.Along (fun pm c => pm.Fresh c.now c.call) (init created)
      (earlier.filter fun c => !c.inserted)) :
    Alike now (after created (earlier.filter fun c => !c.inserted)) (after created earlier) := by
  induction earlier using List.reverseRecOn generalizing now with
  | nil => exact Or.inl rfl
  | append_singleton earlier c ih =>
    rw [List.map_append, List.map_singleton, List.cons_append] at hclock
    have hle : c.now ≤ now := by
      have htail := (List.pairwise_cons.mp hclock).2
      rw [List.pairwise_append] at htail
      exact htail.2.2 c.now (by simp) now (by simp)
    have hclock' : (created :: earlier.map (·.now) ++ [c.now]).Pairwise (· ≤ ·) :=
      hclock.sublist (List.sublist_append_left _ _)
    obtain ⟨hreads, hread⟩ := List.forall_mem_append.mp hreads
    rw [List.filter_append] at hfresh ⊢
    have hbefore := ih hclock' hreads (Machine.along_append.mp hfresh).1
    rw [after_concat]
    cases hinserted : c.inserted with
    | true =>
      rw [List.filter_cons_of_neg (by simp [hinserted]), List.filter_nil, List.append_nil]
      exact (hbefore.insert (hread c (List.mem_singleton.mpr rfl) hinserted)).mono hle
    | false =>
      rw [List.filter_cons_of_pos (by simp [hinserted]), List.filter_nil] at hfresh ⊢
      have hhere := ((Machine.along_append.mp hfresh).2 _ (run_after created _)).1
      rw [after_concat]
      exact (hbefore.perform hhere).2.mono hle

/-- A forced mood and a read after six minutes. The read before it is inserted. -/
def lateReads : List TimedCall :=
  [⟨0, .setMood .happy (1 / 2), false⟩, ⟨360000, .getCurrentMood, true⟩,
    ⟨360000, .getMoodIntensity, false⟩]

/-- The same after one minute, and a second read when the mood has decayed and was asked for. -/
def earlyReads : List TimedCall :=
  [⟨0, .setMood .happy (1 / 2), false⟩, ⟨60000, .getCurrentMood, true⟩,
    ⟨60000, .getMoodIntensity, true⟩, ⟨60000, .getMoodIntensity, false⟩,
    ⟨360000, .getCurrentMood, false⟩, ⟨360000, .getMoodIntensity, false⟩]

end PersonalityManager

end Kaede
