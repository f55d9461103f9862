import Kaede.Infra.Window

/-!
# `PerformanceMonitor`

The token rate of the last second. Readings of the clock are `Int`s: no clock shows a time within a
second of the smallest `Long`.
-/

namespace Kaede

/-- Token rate calculation window. -/
def tokenRateWindowMs : Int := 1000

structure PerformanceMonitor where
  tokenRate : Nat
  generationStartTime : Int
  tokenCount : BitVec 32
  tokenTimestamps : List Int
deriving DecidableEq, Repr

namespace PerformanceMonitor

def init : PerformanceMonitor :=
  { tokenRate := 0, generationStartTime := 0, tokenCount := 0, tokenTimestamps := [] }

def startGeneration (now : Int) (pm : PerformanceMonitor) : PerformanceMonitor :=
  { pm with generationStartTime := now, tokenCount := 0, tokenTimestamps := [] }

def recordToken (now : Int) (pm : PerformanceMonitor) : PerformanceMonitor :=
  let tokenTimestamps := pm.tokenTimestamps ++ [now]
  let oneSecondAgo := now - tokenRateWindowMs
  let recentTokens := tokenTimestamps.countP fun t => oneSecondAgo ≤ t
  { pm with
    tokenCount := pm.tokenCount + 1
    tokenRate := recentTokens
    -- `removeAll`, only when the list has grown too long
    tokenTimestamps :=
      if 1000 < tokenTimestamps.length then tokenTimestamps.filter fun t => !(t < oneSecondAgo)
      else tokenTimestamps }

def clear (pm : PerformanceMonitor) : PerformanceMonitor :=
  { pm with tokenCount := 0, tokenTimestamps := [], tokenRate := 0 }

/-! ## Calls -/

inductive Call where
  | startGeneration (now : Int)
  | recordToken (now : Int)
  | clear
deriving DecidableEq, Repr

def call (pm : PerformanceMonitor) : Call → PerformanceMonitor
  | .startGeneration now => pm.startGeneration now
  | .recordToken now => pm.recordToken now
  | .clear => pm.clear

/-- The time that a call reads from the clock. -/
def Call.reading : Call → Option Int
  | .startGeneration now => some now
  | .recordToken now => some now
  | .clear => none

/-- The clock never goes back. -/
def ClockMonotone (calls : List Call) : Prop := (calls.filterMap Call.reading).Pairwise (· ≤ ·)

instance (calls : List Call) : Decidable (ClockMonotone calls) :=
  inferInstanceAs (Decidable ((calls.filterMap Call.reading).Pairwise (· ≤ ·)))

end PerformanceMonitor

end Kaede
