import Kaede.Ai.PersonalityManager
import Kaede.Infra.Machine
import Kaede.Infra.Ranking
import Mathlib.Algebra.Order.Field.Rat
import Mathlib.Tactic.Positivity

/-!
# Sequences of calls on `PersonalityManager`

Each call carries the time at which it is made. A call can be marked as inserted. The manager does
not see the mark. It tells which answers are compared when two sequences differ by inserted calls.

* `updateMood_of_triggers` — `updateMood` moves to the dominant mood of the message
-/

namespace Kaede

open Infra

namespace PersonalityManager

/-! ## Calls and answers -/

inductive Call where
  | updateMood (userMessage : Text)
  | getCurrentMood
  | getMoodIntensity
  | getMoodDescription
  | setMood (mood : Mood) (intensity : Rat)
  | resetMood
deriving DecidableEq, Repr

inductive Answer where
  | mood (mood : Mood)
  | intensity (intensity : Rat)
  | description (description : Text)
deriving DecidableEq, Repr

structure TimedCall where
  now : Int
  call : Call
  /-- Ghost. -/
  inserted : Bool := false
deriving DecidableEq, Repr

def Call.IsRead : Call → Prop
  | .getCurrentMood | .getMoodIntensity | .getMoodDescription => True
  | _ => False

def answer (pm : PersonalityManager) (now : Int) : Call → Option Answer
  | .getCurrentMood => some (.mood (pm.getCurrentMood now).1)
  | .getMoodIntensity => some (.intensity pm.getMoodIntensity)
  | .getMoodDescription => some (.description pm.getMoodDescription)
  | _ => none

/-- What a call leaves behind. Of the calls that answer, only `getCurrentMood` writes. -/
def perform (pm : PersonalityManager) (now : Int) : Call → PersonalityManager
  | .updateMood userMessage => pm.updateMood now userMessage
  | .getCurrentMood => (pm.getCurrentMood now).2
  | .getMoodIntensity => pm
  | .getMoodDescription => pm
  | .setMood mood intensity => pm.setMood now mood intensity
  | .resetMood => pm.resetMood

def machine : Machine PersonalityManager TimedCall := ⟨fun pm c => some (pm.perform c.now c.call)⟩

/-- The answers to the calls that are not inserted. -/
def answers (pm : PersonalityManager) (calls : List TimedCall) : List Answer :=
  machine.outputs (fun pm c => if c.inserted then none else pm.answer c.now c.call) pm calls

/-- The manager that was made at time `created`, after some calls. -/
def after (created : Int) (calls : List TimedCall) : PersonalityManager :=
  calls.foldl (fun pm c => pm.perform c.now c.call) (init created)

theorem answers_cons (pm : PersonalityManager) (c : TimedCall) (calls : List TimedCall) :
    pm.answers (c :: calls) =
      (if c.inserted then none else pm.answer c.now c.call).toList ++
        (pm.perform c.now c.call).answers calls :=
  Machine.outputs_cons_of_step rfl calls

/-! ## The mood of a message -/

/-- The moods that have triggers, in the order in which they win a tie. -/
def triggeredMoods : List Mood := [.happy, .playful, .jealous, .shy]

def triggers : Mood → List String
  | .happy => happyTriggers
  | .playful => playfulTriggers
  | .jealous => jealousTriggers
  | .shy => shyTriggers
  | .normal => []

/-- How many triggers of the mood the lower-cased message contains. -/
def moodScore (lowerMessage : Text) (mood : Mood) : Nat :=
  countTriggers lowerMessage (triggers mood)

/-- The first mood whose triggers the message contains most of. -/
def dominantMood (lowerMessage : Text) : Option Mood :=
  triggeredMoods.find? fun mood =>
    triggeredMoods.all fun other => moodScore lowerMessage other ≤ moodScore lowerMessage mood

/-- The message contains a trigger. -/
def Triggers (lowerMessage : Text) : Prop :=
  ∃ mood ∈ triggeredMoods, ∃ trigger ∈ triggers mood, contains lowerMessage (utf16 trigger) = true

instance (lowerMessage : Text) : Decidable (Triggers lowerMessage) :=
  inferInstanceAs (Decidable (∃ mood ∈ triggeredMoods, ∃ trigger ∈ triggers mood,
    contains lowerMessage (utf16 trigger) = true))

variable {lowerMessage userMessage : Text} {mood : Mood}

theorem moodScore_pos_iff :
    0 < moodScore lowerMessage mood ↔
      ∃ trigger ∈ triggers mood, contains lowerMessage (utf16 trigger) = true :=
  List.countP_pos_iff

/-- The map of the source, as the moods with their scores. -/
theorem scores_eq (lowerMessage : Text) :
    scores lowerMessage =
      (triggeredMoods ++ [Mood.normal]).map fun mood => (mood, moodScore lowerMessage mood) := rfl

theorem exists_dominantMood (lowerMessage : Text) :
    ∃ mood, dominantMood lowerMessage = some mood := by
  have hmost : ∃ mood ∈ triggeredMoods, ∀ other ∈ triggeredMoods,
      moodScore lowerMessage other ≤ moodScore lowerMessage mood :=
    exists_max_of_mem (x := .happy) List.mem_cons_self
  obtain ⟨mood, hmem, hmax⟩ := hmost
  have hsome : (dominantMood lowerMessage).isSome = true := by
    rw [dominantMood, List.find?_isSome]
    exact ⟨mood, hmem, List.all_eq_true.mpr fun other hother => decide_eq_true (hmax other hother)⟩
  exact Option.isSome_iff_exists.mp hsome

theorem dominantMood_spec (h : dominantMood lowerMessage = some mood) :
    mood ∈ triggeredMoods ∧
      ∀ other ∈ triggeredMoods, moodScore lowerMessage other ≤ moodScore lowerMessage mood := by
  refine ⟨List.mem_of_find?_eq_some h, fun other hother => ?_⟩
  have hall := List.find?_some h
  exact of_decide_eq_true (List.all_eq_true.mp hall other hother)

theorem dominantMood_ne_normal (h : dominantMood lowerMessage = some mood) : mood ≠ .normal := by
  rintro rfl
  have hmem := (dominantMood_spec h).1
  revert hmem
  decide

/-- The search of the source, which the neutral mood cannot win. -/
theorem find?_scores (lowerMessage : Text) :
    ((scores lowerMessage).find? fun entry =>
        entry.2 == ((scores lowerMessage).map (·.2)).foldl max 0).map (·.1) =
      dominantMood lowerMessage := by
  obtain ⟨mood, hmood⟩ := exists_dominantMood lowerMessage
  have hmax :
      (triggeredMoods ++ [Mood.normal]).find? (fun mood => moodScore lowerMessage mood ==
          ((triggeredMoods ++ [Mood.normal]).map (moodScore lowerMessage)).foldl max 0) =
        (triggeredMoods ++ [Mood.normal]).find? fun mood =>
          (triggeredMoods ++ [Mood.normal]).all fun other =>
            decide (moodScore lowerMessage other ≤ moodScore lowerMessage mood) :=
    find?_foldl_max fun _ _ => Nat.zero_le _
  have hall : (fun x => (triggeredMoods ++ [Mood.normal]).all fun y =>
      decide (moodScore lowerMessage y ≤ moodScore lowerMessage x)) =
      fun x => triggeredMoods.all fun y =>
        decide (moodScore lowerMessage y ≤ moodScore lowerMessage x) := by
    funext x
    have hzero : moodScore lowerMessage .normal = 0 := rfl
    simp [hzero]
  have hfirst : triggeredMoods.find? (fun x => triggeredMoods.all fun y =>
      decide (moodScore lowerMessage y ≤ moodScore lowerMessage x)) = some mood := hmood
  have happend : (triggeredMoods ++ [Mood.normal]).find? (fun x => triggeredMoods.all fun y =>
      decide (moodScore lowerMessage y ≤ moodScore lowerMessage x)) = some mood := by
    rw [List.find?_append, hfirst, Option.some_or]
  rw [hall, happend] at hmax
  rw [scores_eq, List.find?_map, List.map_map, Option.map_map, hmood]
  exact (congrArg _ hmax).trans rfl

theorem maxScore_pos_iff (lowerMessage : Text) :
    0 < ((scores lowerMessage).map (·.2)).foldl max 0 ↔ Triggers lowerMessage := by
  have hzero : moodScore lowerMessage .normal = 0 := rfl
  rw [← not_le, foldl_max_le_iff, scores_eq]
  simp only [List.map_map, List.forall_mem_map, Function.comp_apply, le_refl, true_and, Triggers,
    ← moodScore_pos_iff, List.forall_mem_append, List.forall_mem_singleton, hzero, and_true]
  push Not
  rfl

/-! ## What `updateMood` does -/

/-- `updateMood` compares the scores as it divides them, as rationals. -/
theorem foldl_max_cast (entries : List (Mood × Nat)) (n : Nat) :
    (entries.map fun entry => (entry.2 : Rat)).foldl max (n : Rat) =
      ((entries.map (·.2)).foldl max n : Nat) := by
  induction entries generalizing n with
  | nil => rfl
  | cons entry entries ih =>
    rw [List.map_cons, List.map_cons, List.foldl_cons, List.foldl_cons, ← Nat.cast_max, ih]

theorem updateMood_eq (now : Int) (userMessage : Text) (pm : PersonalityManager) :
    pm.updateMood now userMessage =
      if Triggers (lowercase userMessage) then
        if (dominantMood (lowercase userMessage)).getD .normal ≠ pm.currentMood then
          { currentMood := (dominantMood (lowercase userMessage)).getD .normal
            lastMoodChangeTime := now
            moodIntensity :=
              min ((((scores (lowercase userMessage)).map (·.2)).foldl max 0 : Nat) / 5 : Rat) 1 }
        else pm
      else pm := by
  have hcast := foldl_max_cast (scores (lowercase userMessage)) 0
  rw [Nat.cast_zero] at hcast
  have hbeq : ∀ m n : Nat, ((m : Rat) == (n : Rat)) = (m == n) := fun m n => by
    rw [Bool.eq_iff_iff, beq_iff_eq, beq_iff_eq, Nat.cast_inj]
  unfold updateMood
  simp only [hcast, Nat.cast_pos, maxScore_pos_iff, hbeq, find?_scores]

/-- **A message with a trigger moves the mood to its dominant one**, unless that is stored already. -/
theorem updateMood_of_triggers (now : Int) (pm : PersonalityManager)
    (htriggers : Triggers (lowercase userMessage))
    (hmood : dominantMood (lowercase userMessage) = some mood) :
    ∃ intensity : Rat, 0 ≤ intensity ∧ intensity ≤ 1 ∧
      pm.updateMood now userMessage =
        if mood ≠ pm.currentMood then
          { currentMood := mood, lastMoodChangeTime := now, moodIntensity := intensity }
        else pm := by
  refine ⟨min ((((scores (lowercase userMessage)).map (·.2)).foldl max 0 : Nat) / 5 : Rat) 1,
    le_min (by positivity) zero_le_one, min_le_right _ _, ?_⟩
  rw [updateMood_eq, if_pos htriggers, hmood, Option.getD_some]

theorem updateMood_of_not_triggers (now : Int) (pm : PersonalityManager)
    (htriggers : ¬ Triggers (lowercase userMessage)) : pm.updateMood now userMessage = pm := by
  rw [updateMood_eq, if_neg htriggers]

/-! ## Decay -/

/-- The stored mood is older than the decay time, and nobody has read it since. -/
def Stale (pm : PersonalityManager) (now : Int) : Prop :=
  pm.currentMood ≠ .normal ∧ moodDecayTimeMs < now - pm.lastMoodChangeTime

instance (pm : PersonalityManager) (now : Int) : Decidable (pm.Stale now) :=
  inferInstanceAs (Decidable (_ ∧ _))

def decayed (pm : PersonalityManager) : PersonalityManager :=
  { pm with currentMood := .normal, moodIntensity := 0 }

theorem getCurrentMood_of_stale {pm : PersonalityManager} {now : Int} (h : pm.Stale now) :
    pm.getCurrentMood now = (.normal, pm.decayed) := if_pos h

theorem getCurrentMood_of_not_stale {pm : PersonalityManager} {now : Int} (h : ¬ pm.Stale now) :
    pm.getCurrentMood now = (pm.currentMood, pm) := if_neg h

theorem Stale.mono {pm : PersonalityManager} {now later : Int} (h : pm.Stale now)
    (hle : now ≤ later) : pm.Stale later := ⟨h.1, by have := h.2; omega⟩

theorem not_stale_decayed (pm : PersonalityManager) (now : Int) : ¬ pm.decayed.Stale now :=
  fun h => h.1 rfl

end PersonalityManager

end Kaede
