import Kaede.Infra.Machine

/-!
# `KaedeDatabase.getDatabase`

Any number of threads call `getDatabase`. One step of a call is one access to what the threads
share: the volatile `INSTANCE`, the monitor of the companion object, or Room's `build`. Database
instances are numbered in the order in which they are built.

* `Transition` — what a step can do
* `committed` — the builds that have run or cannot be avoided any more
-/

namespace Kaede

open Infra

/-- What a call of `getDatabase` does next. -/
inductive GetDatabaseStage where
  /-- Read `INSTANCE`. -/
  | reading
  /-- Enter `synchronized`. -/
  | entering
  /-- `Room.databaseBuilder(…).build()`. -/
  | building
  /-- `INSTANCE = instance`. -/
  | writing (database : Nat)
  /-- Leave `synchronized`. -/
  | leaving (database : Nat)
  | returned (database : Nat)
deriving DecidableEq, Repr

/-- The call has found `null` and has not built yet. It will build, whatever else happens. -/
def GetDatabaseStage.isUnderway : GetDatabaseStage → Bool
  | .entering | .building => true
  | _ => false

/-- The companion object and the calls so far. -/
structure KaedeDatabase where
  INSTANCE : Option Nat
  /-- The call that is inside `synchronized`. -/
  monitor : Option Nat
  /-- How often Room has built. -/
  builds : Nat
  calls : List GetDatabaseStage
deriving DecidableEq, Repr

namespace KaedeDatabase

def init : KaedeDatabase := { INSTANCE := none, monitor := none, builds := 0, calls := [] }

/-! ## Steps -/

inductive Event where
  /-- A thread calls `getDatabase`. -/
  | getDatabase
  /-- The `i`-th call takes its next step. -/
  | advance (i : Nat)
deriving DecidableEq, Repr

/-- The next step of the `i`-th call. It waits while another call is inside `synchronized`. -/
def advance (s : KaedeDatabase) (i : Nat) : GetDatabaseStage → Option KaedeDatabase
  | .reading =>
    match s.INSTANCE with
    | some database => some { s with calls := s.calls.set i (.returned database) }
    | none => some { s with calls := s.calls.set i .entering }
  | .entering =>
    if s.monitor = none then
      some { s with monitor := some i, calls := s.calls.set i .building }
    else none
  | .building =>
    some { s with builds := s.builds + 1, calls := s.calls.set i (.writing s.builds) }
  | .writing database =>
    some { s with INSTANCE := some database, calls := s.calls.set i (.leaving database) }
  | .leaving database =>
    some { s with monitor := none, calls := s.calls.set i (.returned database) }
  | .returned _ => none

def step (s : KaedeDatabase) : Event → Option KaedeDatabase
  | .getDatabase => some { s with calls := s.calls ++ [.reading] }
  | .advance i => (s.calls[i]?).bind (s.advance i)

def machine : Machine KaedeDatabase Event := ⟨step⟩

inductive Transition (s : KaedeDatabase) : Event → KaedeDatabase → Prop where
  | called : Transition s .getDatabase { s with calls := s.calls ++ [.reading] }
  | found (i database : Nat) (hi : s.calls[i]? = some .reading)
    (hread : s.INSTANCE = some database) :
    Transition s (.advance i) { s with calls := s.calls.set i (.returned database) }
  | foundNull (i : Nat) (hi : s.calls[i]? = some .reading) (hread : s.INSTANCE = none) :
    Transition s (.advance i) { s with calls := s.calls.set i .entering }
  | entered (i : Nat) (hi : s.calls[i]? = some .entering) (hfree : s.monitor = none) :
    Transition s (.advance i) { s with monitor := some i, calls := s.calls.set i .building }
  | built (i : Nat) (hi : s.calls[i]? = some .building) :
    Transition s (.advance i)
      { s with builds := s.builds + 1, calls := s.calls.set i (.writing s.builds) }
  | written (i database : Nat) (hi : s.calls[i]? = some (.writing database)) :
    Transition s (.advance i)
      { s with INSTANCE := some database, calls := s.calls.set i (.leaving database) }
  | left (i database : Nat) (hi : s.calls[i]? = some (.leaving database)) :
    Transition s (.advance i)
      { s with monitor := none, calls := s.calls.set i (.returned database) }

variable {s t : KaedeDatabase} {e : Event} {es : List Event}

theorem transition_of_step (h : machine.step s e = some t) : Transition s e t := by
  change step s e = some t at h
  cases e with
  | getDatabase =>
    cases h
    exact .called
  | advance i =>
    obtain ⟨stage, hi, hnext⟩ := Option.bind_eq_some_iff.mp h
    cases stage with
    | reading =>
      rw [advance] at hnext
      split at hnext
      · next database hread =>
        cases hnext
        exact .found i database hi hread
      · next hread =>
        cases hnext
        exact .foundNull i hi hread
    | entering =>
      rw [advance] at hnext
      split at hnext
      · next hfree =>
        cases hnext
        exact .entered i hi hfree
      · cases hnext
    | building =>
      cases hnext
      exact .built i hi
    | writing database =>
      cases hnext
      exact .written i database hi
    | leaving database =>
      cases hnext
      exact .left i database hi
    | returned database => cases hnext

/-! ## Builds that cannot be avoided -/

/-- How often Room has built, or will have built once every call has returned. -/
def committed (s : KaedeDatabase) : Nat := s.builds + s.calls.countP (·.isUnderway)

end KaedeDatabase

end Kaede
