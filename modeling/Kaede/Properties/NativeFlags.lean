import Kaede.Ai.MlcJni
import Kaede.Infra.Mutex

/-!
# The flags of the native layer under concurrency

* `Consistent` — who holds the mutex, and what `g_is_generating` says about that call
* `AlmostDone` — a call in its token loop after a cancel
* `Uncancelled` — a call in its token loop that no cancel has reached
* `nativeFlags_of_run` — the three guarantees, for every interleaving
-/

namespace Kaede

open Infra

namespace MlcJni

/-! ## Points -/

/-- Between the acquisition of the mutex and its release. -/
def NativeCall.holdsLock : NativeCall → Bool
  | .generate call => call.point ≠ .locking && call.point ≠ .returned
  | .cancel _ => false
  | .release point => point ≠ .locking && point ≠ .returned

/-- Between the two writes of `g_is_generating` in `nativeGenerate`. -/
def NativeCall.generating : NativeCall → Bool
  | .generate call =>
    call.point ≠ .locking && call.point ≠ .settingGenerating && call.point ≠ .unlocking &&
      call.point ≠ .returned
  | _ => false

/-- Between the reset of `g_should_cancel` and the end of the token loop. -/
def GeneratePoint.inLoop : GeneratePoint → Bool
  | .lookingUp | .readingReady | .checking _ | .calling _ _ => true
  | _ => false

/-- Behind the token loop. -/
def GeneratePoint.loopEnded : GeneratePoint → Bool
  | .clearingGenerating | .unlocking | .returned => true
  | _ => false

/-- In front of the reset of `g_should_cancel`, or at it. -/
def GeneratePoint.beforeReset : GeneratePoint → Bool
  | .locking | .settingGenerating | .resettingCancel => true
  | _ => false

theorem NativeCall.holdsLock_of_generating {call : NativeCall} (h : call.generating = true) :
    call.holdsLock = true := by
  cases call with
  | generate call =>
    simp only [generating, Bool.and_eq_true] at h
    simp only [holdsLock, Bool.and_eq_true]
    exact ⟨h.1.1.1, h.2⟩
  | cancel => cases h
  | release => cases h

theorem holdsLock_of_inLoop {call : GenerateCall} (h : call.point.inLoop = true) :
    (NativeCall.generate call).holdsLock = true := by
  cases hpoint : call.point <;> simp_all [GeneratePoint.inLoop, NativeCall.holdsLock]

/-! ## What one step of a call does to the globals -/

variable {i : Nat} {found : Bool} {g g' : Globals} {call call' : NativeCall}

/-- The mutex is taken by this call when it is free, or released by it, or left alone. -/
theorem lockStep_of_transition (h : CallTransition i g call g' call') :
    LockStep NativeCall.holdsLock i g.holder call g'.holder call' := by
  cases h with
  | lock call hfree => exact .take hfree rfl rfl
  | lockRelease hfree => exact .take hfree rfl rfl
  | unlock call => exact .release rfl rfl rfl
  | unlockRelease => exact .release rfl rfl rfl
  | _ => exact .keep rfl rfl

/-- The flag is set by a call that is now generating, or it was set and this call was not. -/
theorem isGenerating_of_transition (h : CallTransition i g call g' call')
    (hset : g'.isGenerating = true) :
    call'.generating = true ∨ (g.isGenerating = true ∧ call.generating = false) := by
  cases h <;> simp_all [NativeCall.generating]

/-- Only a call that holds the mutex takes a cancel back. -/
theorem shouldCancel_of_transition (h : CallTransition i g call g' call')
    (hset : g.shouldCancel = true) (hfree : call.holdsLock = false) : g'.shouldCancel = true := by
  cases h <;> simp_all [NativeCall.holdsLock]

/-- Only the store of `nativeCancel` sets the flag. -/
theorem not_shouldCancel_of_transition (h : CallTransition i g call g' call')
    (hclear : g.shouldCancel = false) (hcall : call ≠ .cancel false) :
    g'.shouldCancel = false := by
  cases h <;> simp_all

theorem exists_generate_of_transition {call : GenerateCall} {next : NativeCall}
    (h : CallTransition i g (.generate call) g' next) : ∃ call', next = .generate call' := by
  cases h <;> exact ⟨_, rfl⟩

/-! ## The mutex and `g_is_generating` -/

/-- Who holds the mutex, and what the flag says about it. -/
structure Consistent (s : Native) : Prop where
  holder : ∀ i, s.globals.holder = some i ↔
    ∃ call, s.calls[i]? = some call ∧ call.holdsLock = true
  generating : s.globals.isGenerating = true →
    ∃ (i : Nat) (call : NativeCall), s.calls[i]? = some call ∧ call.generating = true
  /-- A call that has not reset the cancel flag has delivered nothing. -/
  fresh : ∀ (i : Nat) (call : GenerateCall), s.calls[i]? = some (.generate call) →
    call.point.beforeReset = true → call.delivered = [] ∧ call.response = none

variable {s t : Native} {e : Event}

theorem consistent_init : Consistent init := by
  constructor
  · simp [init]
  · intro h
    cases h
  · intro i call h
    simp [init] at h

theorem Consistent.mutex (h : Consistent s) :
    HeldBy NativeCall.holdsLock s.globals.holder s.calls := h.holder

theorem consistent_call {function : NativeFunction} (h : Consistent s)
    (hstep : step s (.call function) = some t) : Consistent t := by
  obtain ⟨hglobals, hcalls⟩ := call_cases hstep
  constructor
  · rw [hglobals, hcalls]
    -- a new call does not hold the mutex
    exact h.mutex.concat (by cases function <;> rfl)
  · rw [hglobals, hcalls]
    intro hset
    obtain ⟨i, call, hcall, hgenerating⟩ := h.generating hset
    exact ⟨i, call, getElem?_concat_of_some hcall, hgenerating⟩
  · rw [hcalls]
    intro i call hcall hbefore
    rcases getElem?_concat_or hcall with hold | ⟨-, hnew⟩
    · exact h.fresh i call hold hbefore
    · cases function with
      | nativeGenerate prompt => cases hnew; exact ⟨rfl, rfl⟩
      | nativeCancel => cases hnew
      | nativeRelease => cases hnew

theorem fresh_of_transition {call' : GenerateCall}
    (h : CallTransition i g call g' (.generate call')) (hbefore : call'.point.beforeReset = true) :
    ∃ old, call = .generate old ∧ old.point.beforeReset = true ∧
      call'.delivered = old.delivered ∧ call'.response = old.response := by
  cases h <;> simp_all [GeneratePoint.beforeReset]

theorem consistent_advance (h : Consistent s) (hstep : step s (.advance i found) = some t) :
    Consistent t := by
  obtain ⟨call, call', hcall, htransition, hself, hothers⟩ := advance_cases hstep
  refine ⟨?holder, fun hset => ?generating, fun j c hc hbefore => ?fresh⟩
  case holder => exact h.mutex.move hcall hself hothers (lockStep_of_transition htransition)
  case generating =>
    rcases isGenerating_of_transition htransition hset with hnow | ⟨hwas, hnot⟩
    · exact ⟨i, call', hself, hnow⟩
    · obtain ⟨j, c, hc, hgenerating⟩ := h.generating hwas
      have hj : j ≠ i := by
        rintro rfl
        rw [hcall, Option.some.injEq] at hc
        rw [← hc, hnot] at hgenerating
        cases hgenerating
      exact ⟨j, c, by rw [hothers j hj, hc], hgenerating⟩
  case fresh =>
    by_cases hj : j = i
    · rw [hj, hself, Option.some.injEq] at hc
      rw [hc] at htransition
      obtain ⟨old, rfl, hold, hdelivered, hresponse⟩ := fresh_of_transition htransition hbefore
      rw [hdelivered, hresponse]
      exact h.fresh i old hcall hold
    · exact h.fresh j c (hothers j hj ▸ hc) hbefore

theorem consistent_step (h : Consistent s) (hstep : step s e = some t) : Consistent t := by
  cases e with
  | call function => exact consistent_call h hstep
  | advance i found => exact consistent_advance h hstep

theorem consistent_of_run {es : List Event} (hrun : machine.run init es = some s) :
    Consistent s :=
  machine.run_invariant (fun _ _ _ h hstep => consistent_step h hstep) consistent_init hrun

/-! ## One call among the others -/

/-- Nobody else moves a call. -/
theorem call_of_step {call : NativeCall} (hcall : s.calls[i]? = some call)
    (hother : ∀ found, e ≠ .advance i found) (hstep : step s e = some t) :
    t.calls[i]? = some call := by
  cases e with
  | call function =>
    rw [(call_cases hstep).2]
    exact getElem?_concat_of_some hcall
  | advance j found =>
    have hij : i ≠ j := by
      rintro rfl
      exact hother found rfl
    obtain ⟨_, _, -, -, -, hothers⟩ := advance_cases hstep
    rw [hothers i hij, hcall]

/-- The step of a call of `nativeGenerate`. -/
theorem transition_of_step {call : GenerateCall} (hcall : s.calls[i]? = some (.generate call))
    (hstep : step s (.advance i found) = some t) :
    ∃ call', CallTransition i s.globals (.generate call) t.globals (.generate call') ∧
      t.calls[i]? = some (.generate call') := by
  obtain ⟨_, next, hcall', htransition, hself, -⟩ := advance_cases hstep
  rw [hcall, Option.some.injEq] at hcall'
  rw [← hcall'] at htransition
  obtain ⟨call', rfl⟩ := exists_generate_of_transition htransition
  exact ⟨call', htransition, hself⟩

/-- A step is one of this call, or the call stays where it is. -/
theorem follow_call {call : GenerateCall} (hcall : s.calls[i]? = some (.generate call))
    (hstep : step s e = some t) :
    (∃ call', CallTransition i s.globals (.generate call) t.globals (.generate call') ∧
        t.calls[i]? = some (.generate call')) ∨
      ((∀ found, e ≠ .advance i found) ∧ t.calls[i]? = some (.generate call)) := by
  by_cases hown : ∃ found, e = .advance i found
  · obtain ⟨found, rfl⟩ := hown
    exact Or.inl (transition_of_step hcall hstep)
  · have hother : ∀ found, e ≠ .advance i found := fun found he => hown ⟨found, he⟩
    exact Or.inr ⟨hother, call_of_step hcall hother hstep⟩

/-- While a call is in its loop, no other call takes a cancel back. -/
theorem shouldCancel_of_other (h : Consistent s) {call : GenerateCall}
    (hcall : s.calls[i]? = some (.generate call)) (hloop : call.point.inLoop = true)
    (hset : s.globals.shouldCancel = true) (hother : ∀ found, e ≠ .advance i found)
    (hstep : step s e = some t) : t.globals.shouldCancel = true := by
  cases e with
  | call function => rw [(call_cases hstep).1, hset]
  | advance j found =>
    obtain ⟨other, _, hotherCall, htransition, -, -⟩ := advance_cases hstep
    refine shouldCancel_of_transition htransition hset ?_
    -- the call in the loop holds the mutex
    rw [← Bool.not_eq_true]
    intro hholds
    have hji := h.mutex.eq_of_holds hotherCall hholds hcall (holdsLock_of_inLoop hloop)
    exact hother found (by rw [hji])

/-- The store of a `nativeCancel`. -/
def IsCancelStore (s : Native) (e : Event) : Prop :=
  ∃ j found, e = .advance j found ∧ s.calls[j]? = some (.cancel false)

theorem not_shouldCancel_of_step (hclear : s.globals.shouldCancel = false)
    (hstore : ¬ IsCancelStore s e) (hstep : step s e = some t) :
    t.globals.shouldCancel = false := by
  cases e with
  | call function => rw [(call_cases hstep).1, hclear]
  | advance j found =>
    obtain ⟨call, _, hcall, htransition, -, -⟩ := advance_cases hstep
    refine not_shouldCancel_of_transition htransition hclear ?_
    rintro rfl
    exact hstore ⟨j, found, rfl, hcall⟩

/-! ## After a cancel -/

/-- A cancel has been stored since the reset. At most one more callback follows the `base` ones
that were made before it. -/
structure CancelReached (base : Nat) (g : Globals) (call : GenerateCall) : Prop where
  started : call.point.beforeReset = false
  cancelled : call.point.inLoop = true → g.shouldCancel = true
  bound : call.delivered.length ≤ base + 1
  atCallback : ∀ c rest, call.point = .calling c rest → call.delivered.length ≤ base

theorem CancelReached.transition {base : Nat} {call call' : GenerateCall}
    (h : CancelReached base g call)
    (hstep : CallTransition i g (.generate call) g' (.generate call')) :
    CancelReached base g' call' := by
  obtain ⟨hstarted, hcancelled, hbound, hcallback⟩ := h
  constructor
  · cases hstep <;> simp_all [GeneratePoint.beforeReset]
  · cases hstep <;> simp_all [GeneratePoint.beforeReset, GeneratePoint.inLoop]
  · cases hstep <;> simp_all [GeneratePoint.beforeReset]
  · cases hstep <;> simp_all [GeneratePoint.beforeReset, GeneratePoint.inLoop]

def AlmostDone (base i : Nat) (s : Native) : Prop :=
  ∃ call, s.calls[i]? = some (.generate call) ∧ CancelReached base s.globals call

theorem almostDone_step {base : Nat} (h : Consistent s) (hdone : AlmostDone base i s)
    (hstep : step s e = some t) : AlmostDone base i t := by
  obtain ⟨call, hcall, hreached⟩ := hdone
  rcases follow_call hcall hstep with ⟨call', htransition, hcall'⟩ | ⟨hother, hsame⟩
  · exact ⟨call', hcall', hreached.transition htransition⟩
  · refine ⟨call, hsame, hreached.started, fun hloop => ?_, hreached.bound, hreached.atCallback⟩
    exact shouldCancel_of_other h hcall hloop (hreached.cancelled hloop) hother hstep

/-! ## Without a cancel -/

/-- What the loop has still to deliver. -/
def GeneratePoint.remaining : GeneratePoint → Bytes
  | .checking rest => rest
  | .calling c rest => c :: rest
  | _ => []

/-- No cancel has been stored since the reset. What is delivered and what remains are the
response. -/
structure Uncancelled (g : Globals) (call : GenerateCall) : Prop where
  started : call.point.beforeReset = false
  clear : call.point.inLoop = true → g.shouldCancel = false
  unchosen : call.point = .lookingUp ∨ call.point = .readingReady → call.response = none
  complete : call.delivered ++ call.point.remaining.map chunk =
    (call.response.getD []).map chunk

theorem Uncancelled.transition {call call' : GenerateCall} (h : Uncancelled g call)
    (hstep : CallTransition i g (.generate call) g' (.generate call')) : Uncancelled g' call' := by
  obtain ⟨hstarted, hclear, hunchosen, hcomplete⟩ := h
  constructor
  · cases hstep <;> simp_all [GeneratePoint.beforeReset]
  · cases hstep <;> simp_all [GeneratePoint.beforeReset, GeneratePoint.inLoop]
  · cases hstep <;> simp_all [GeneratePoint.beforeReset]
  · cases hstep <;>
      simp_all [GeneratePoint.beforeReset, GeneratePoint.inLoop, GeneratePoint.remaining]

theorem uncancelled_step {call : GenerateCall} (hcall : s.calls[i]? = some (.generate call))
    (h : Uncancelled s.globals call) (hstore : IsCancelStore s e → call.point.inLoop = false)
    (hstep : step s e = some t) :
    ∃ call', t.calls[i]? = some (.generate call') ∧ Uncancelled t.globals call' := by
  rcases follow_call hcall hstep with ⟨call', htransition, hcall'⟩ | ⟨hother, hsame⟩
  · exact ⟨call', hcall', h.transition htransition⟩
  · refine ⟨call, hsame, h.started, fun hloop => ?_, h.unchosen, h.complete⟩
    refine not_shouldCancel_of_step (h.clear hloop) (fun hcancel => ?_) hstep
    rw [hstore hcancel] at hloop
    cases hloop

/-! ## The guarantees -/

variable {u : Native} {later : List Event}

theorem holder_of_isGenerating (h : Consistent s) (hset : s.globals.isGenerating = true) :
    ∃ (i : Nat) (call : GenerateCall),
      s.globals.holder = some i ∧ s.calls[i]? = some (.generate call) := by
  obtain ⟨i, call, hcall, hgenerating⟩ := h.generating hset
  have hi := h.mutex.holder_eq hcall (NativeCall.holdsLock_of_generating hgenerating)
  cases call with
  | generate call => exact ⟨i, call, hi, hcall⟩
  | cancel => cases hgenerating
  | release => cases hgenerating

theorem almostDone_of_store {call : GenerateCall} (hcall : s.calls[i]? = some (.generate call))
    (hloop : call.point.inLoop = true) (hstore : IsCancelStore s e)
    (hstep : step s e = some t) : AlmostDone call.delivered.length i t := by
  obtain ⟨j, found, rfl, hcancel⟩ := hstore
  have hother : ∀ found', Event.advance j found ≠ .advance i found' := by
    rintro found' ⟨⟩
    rw [hcall] at hcancel
    cases hcancel
  obtain ⟨_, _, hcall', htransition, -, -⟩ := advance_cases hstep
  rw [hcancel, Option.some.injEq] at hcall'
  rw [← hcall'] at htransition
  have hset : t.globals.shouldCancel = true := by
    generalize t.globals = g at htransition
    cases htransition
    rfl
  refine ⟨call, call_of_step hcall hother hstep, ?_, fun _ => hset, Nat.le_succ _,
    fun _ _ _ => Nat.le_refl _⟩
  cases hpoint : call.point <;> simp_all [GeneratePoint.inLoop, GeneratePoint.beforeReset]

/-- A cancel in the loop leaves room for one more token. -/
theorem delivered_after_cancel (h : Consistent s) {call call' : GenerateCall}
    (hcall : s.calls[i]? = some (.generate call)) (hloop : call.point.inLoop = true)
    (hstore : IsCancelStore s e) (hstep : step s e = some t)
    (hlater : machine.run t later = some u) (hcall' : u.calls[i]? = some (.generate call')) :
    call'.delivered.length ≤ call.delivered.length + 1 := by
  have hdone := almostDone_of_store hcall hloop hstore hstep
  have hinvariant := machine.run_invariant
    (I := fun s => Consistent s ∧ AlmostDone call.delivered.length i s)
    (fun _ _ _ h hstep => ⟨consistent_step h.1 hstep, almostDone_step h.1 h.2 hstep⟩)
    ⟨consistent_step h hstep, hdone⟩ hlater
  obtain ⟨_, last, hlast, hreached⟩ := hinvariant
  rw [hcall', Option.some.injEq, NativeCall.generate.injEq] at hlast
  rw [hlast]
  exact hreached.bound

/-- The event is no cancel, or the call is not in its loop. -/
def SparesLoop (i : Nat) (s : Native) (e : Event) : Prop :=
  IsCancelStore s e → ∀ call, s.calls[i]? = some (.generate call) → call.point.inLoop = false

theorem uncancelled_of_reset (h : Consistent s) {call : GenerateCall}
    (hcall : s.calls[i]? = some (.generate call)) (hpoint : call.point = .resettingCancel)
    (hstep : step s (.advance i found) = some t) :
    ∃ call', t.calls[i]? = some (.generate call') ∧ Uncancelled t.globals call' := by
  obtain ⟨hdelivered, hresponse⟩ := h.fresh i call hcall (by rw [hpoint]; rfl)
  obtain ⟨call', htransition, hcall'⟩ := transition_of_step hcall hstep
  refine ⟨call', hcall', ?_⟩
  generalize t.globals = g at htransition
  cases htransition with
  | resetCancel call =>
    refine ⟨rfl, fun _ => rfl, fun _ => hresponse, ?_⟩
    simp_all [GeneratePoint.remaining]
  | _ => cases hpoint

/-- An uncancelled call that no cancel reaches delivers its whole response. -/
theorem delivered_of_uncancelled {call call' : GenerateCall}
    (hcall : s.calls[i]? = some (.generate call)) (h : Uncancelled s.globals call)
    (hspares : machine.Along (SparesLoop i) s later) (hlater : machine.run s later = some u)
    (hcall' : u.calls[i]? = some (.generate call')) (hended : call'.point.loopEnded = true) :
    call'.delivered = (call'.response.getD []).map chunk := by
  have hinvariant := machine.run_invariant_along
    (I := fun s => ∃ call, s.calls[i]? = some (.generate call) ∧ Uncancelled s.globals call)
    (fun s e t hs hspares hstep => by
      obtain ⟨call, hcall, huncancelled⟩ := hs
      exact uncancelled_step hcall huncancelled (fun hstore => hspares hstore call hcall) hstep)
    hspares ⟨call, hcall, h⟩ hlater
  obtain ⟨last, hlast, huncancelled⟩ := hinvariant
  rw [hcall', Option.some.injEq, NativeCall.generate.injEq] at hlast
  have hcomplete := huncancelled.complete
  rw [← hlast] at hcomplete
  cases hpoint : call'.point <;>
    simp_all [GeneratePoint.loopEnded, GeneratePoint.remaining]

/--
**The native flags keep their promises in every interleaving.**

The flag `g_is_generating` is only set while a call of `nativeGenerate` holds the mutex. A cancel
in the token loop leaves room for one more token, and one before the reset for all of them.
-/
theorem nativeFlags_of_run {es : List Event} (hrun : machine.run init es = some s) :
    (s.globals.isGenerating = true →
        ∃ (i : Nat) (call : GenerateCall),
          s.globals.holder = some i ∧ s.calls[i]? = some (.generate call)) ∧
      (s.globals.holder = none → s.globals.isGenerating = false) ∧
      (∀ (i : Nat) (call : GenerateCall) (e : Event) (t : Native) (later : List Event)
          (u : Native) (call' : GenerateCall),
        s.calls[i]? = some (.generate call) → call.point.inLoop = true →
        IsCancelStore s e → step s e = some t → machine.run t later = some u →
        u.calls[i]? = some (.generate call') →
          call'.delivered.length ≤ call.delivered.length + 1) ∧
      ∀ (i : Nat) (call : GenerateCall) (found : Bool) (t : Native) (later : List Event)
          (u : Native) (call' : GenerateCall),
        s.calls[i]? = some (.generate call) → call.point = .resettingCancel →
        step s (.advance i found) = some t → machine.Along (SparesLoop i) t later →
        machine.run t later = some u → u.calls[i]? = some (.generate call') →
        call'.point.loopEnded = true →
          call'.delivered = (call'.response.getD []).map chunk := by
  have h := consistent_of_run hrun
  refine ⟨holder_of_isGenerating h, fun hfree => ?_, ?_, ?_⟩
  · rw [← Bool.not_eq_true]
    intro hset
    obtain ⟨i, _, hi, _⟩ := holder_of_isGenerating h hset
    rw [hfree] at hi
    cases hi
  · intro i call e t later u call' hcall hloop hstore hstep hlater hcall'
    exact delivered_after_cancel h hcall hloop hstore hstep hlater hcall'
  · intro i call found t later u call' hcall hpoint hstep hspares hlater hcall' hended
    -- after its reset the call is uncancelled
    obtain ⟨next, hnext, huncancelled⟩ := uncancelled_of_reset h hcall hpoint hstep
    exact delivered_of_uncancelled hnext huncancelled hspares hlater hcall' hended

/-- A call that is about to choose its response, and a cancel that is about to be stored. -/
def aboutToCancel : Native :=
  { globals :=
      { holder := some 0, isGenerating := true, shouldCancel := false, mlcReady := false },
    calls :=
      [.generate { prompt := [], point := .readingReady, delivered := [], response := none },
        .cancel false] }

/-- The cancel is stored, and then the response is chosen. -/
theorem nativeFlags_of_run_cancelled :
    ∃ u call, machine.run aboutToCancel [.advance 1 true, .advance 0 true] = some u ∧
      u.calls[0]? = some (.generate call) ∧ call.point.inLoop = true ∧
      call.delivered.length ≤ 1 := by
  have hrun : machine.run init [.call (.nativeGenerate []), .advance 0 true, .advance 0 true,
    .advance 0 true, .call .nativeCancel, .advance 0 true] = some aboutToCancel := rfl
  refine ⟨_, _, rfl, rfl, rfl, ?_⟩
  exact (nativeFlags_of_run hrun).2.2.1 0 _ (.advance 1 true) _ [.advance 0 true] _ _ rfl rfl
    ⟨1, true, rfl, rfl⟩ rfl rfl rfl

end MlcJni

end Kaede
