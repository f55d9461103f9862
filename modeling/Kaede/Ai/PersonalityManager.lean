import Kaede.Decimal
import Mathlib.Algebra.Order.Ring.Unbundled.Rat

/-!
# `PersonalityManager`

The mood, when it last changed, and how strong it is. Times are epoch milliseconds and are passed
in: `now` is what `System.currentTimeMillis()` reads. Intensities are exact rationals.
-/

namespace Kaede

inductive Mood where
  | happy
  | playful
  | jealous
  | shy
  | normal
deriving DecidableEq, Repr

/-- The enum constant's name, as `associated_mood` stores it. -/
def Mood.name : Mood → Text
  | .happy => utf16 "HAPPY"
  | .playful => utf16 "PLAYFUL"
  | .jealous => utf16 "JEALOUS"
  | .shy => utf16 "SHY"
  | .normal => utf16 "NORMAL"

structure PersonalityManager where
  currentMood : Mood
  lastMoodChangeTime : Int
  moodIntensity : Rat
deriving DecidableEq, Repr

namespace PersonalityManager

/-- A new manager, constructed at time `now`. -/
def init (now : Int) : PersonalityManager :=
  { currentMood := .normal, lastMoodChangeTime := now, moodIntensity := 0 }

/-! ## Constants -/

/-- Five minutes. -/
def moodDecayTimeMs : Int := 5 * 60 * 1000

def happyTriggers : List String :=
  ["love", "like", "amazing", "wonderful", "great", "awesome",
    "beautiful", "cute", "sweet", "kind", "smart", "clever",
    "thank", "appreciate", "adore", "miss", "happy", "glad",
    "excited", "joy", "smile", "laugh", "fun", "enjoy"]

def playfulTriggers : List String :=
  ["tease", "joke", "play", "funny", "silly", "weird",
    "challenge", "bet", "dare", "game", "trick", "prank",
    "haha", "lol", "lmao", "jk", "just kidding"]

def jealousTriggers : List String :=
  ["girl", "boy", "friend", "date", "meeting", "other",
    "someone else", "somebody", "they", "them", "her", "him",
    "together", "hang out", "spend time", "talk to"]

def shyTriggers : List String :=
  ["blush", "embarrass", "shy", "nervous", "awkward",
    "appearance", "look", "pretty", "handsome", "attractive",
    "body", "face", "eyes", "hair", "clothes", "outfit"]

/-! ## Updating the mood -/

/-- How many of the triggers the message contains. -/
def countTriggers (message : Text) (triggers : List String) : Nat :=
  triggers.countP fun trigger => contains message (utf16 trigger)

/-- The scores in the insertion order of the source's map. -/
def scores (lowerMessage : Text) : List (Mood × Nat) :=
  [(.happy, countTriggers lowerMessage happyTriggers),
    (.playful, countTriggers lowerMessage playfulTriggers),
    (.jealous, countTriggers lowerMessage jealousTriggers),
    (.shy, countTriggers lowerMessage shyTriggers),
    (.normal, 0)]

def updateMood (now : Int) (userMessage : Text) (pm : PersonalityManager) : PersonalityManager :=
  let scores := scores (lowercase userMessage)
  let maxScore := (scores.map (·.2)).foldl max 0
  if 0 < maxScore then
    let newMood := ((scores.find? fun entry => entry.2 == maxScore).map (·.1)).getD .normal
    if newMood ≠ pm.currentMood then
      { currentMood := newMood, lastMoodChangeTime := now,
        moodIntensity := min ((maxScore : Rat) / 5) 1 }
    else pm
  else pm

/-! ## Reading the mood -/

/-- Reading the mood also lets it decay. The new manager is the second component. -/
def getCurrentMood (now : Int) (pm : PersonalityManager) : Mood × PersonalityManager :=
  if pm.currentMood ≠ .normal ∧ moodDecayTimeMs < now - pm.lastMoodChangeTime then
    (.normal, { pm with currentMood := .normal, moodIntensity := 0 })
  else (pm.currentMood, pm)

def getMoodIntensity (pm : PersonalityManager) : Rat := pm.moodIntensity

/-- `intensity.coerceIn(0f, 1f)`. -/
def setMood (now : Int) (mood : Mood) (intensity : Rat) (_pm : PersonalityManager) :
    PersonalityManager :=
  { currentMood := mood, lastMoodChangeTime := now, moodIntensity := max 0 (min intensity 1) }

def resetMood (pm : PersonalityManager) : PersonalityManager :=
  { pm with currentMood := .normal, moodIntensity := 0 }

/-- `String.format("%.2f", x)` for `0 ≤ x`, with a decimal point. Half a hundredth is rounded up. -/
def formatTwoDecimals (x : Rat) : Text :=
  let hundredths := (x * 100 + 1 / 2).floor.toNat
  natText (hundredths / 100) ++ utf16 "." ++
    [digitUnit (hundredths / 10 % 10), digitUnit (hundredths % 10)]

/-- For debugging. -/
def getMoodDescription (pm : PersonalityManager) : Text :=
  utf16 "Mood: " ++ pm.currentMood.name ++ utf16 ", Intensity: " ++
    formatTwoDecimals pm.moodIntensity

/-- The mood that is left in the manager is the mood that was returned. -/
theorem getCurrentMood_currentMood (now : Int) (pm : PersonalityManager) :
    (pm.getCurrentMood now).2.currentMood = (pm.getCurrentMood now).1 := by
  unfold getCurrentMood
  split <;> rfl

end PersonalityManager

end Kaede
