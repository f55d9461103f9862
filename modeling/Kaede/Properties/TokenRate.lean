import Kaede.Util.PerformanceMonitor

/-!
# The token rate of a pruned list

The full log holds the time of every token since the last start or clear. The monitor drops some of
them. A dropped time is older than a second, and it can only get older.

* `agrees_of_calls` — no later second can tell the held list from the log
* `tokenRate_of_calls` — the rate is the number of tokens of the log in the last second
-/

namespace Kaede.PerformanceMonitor

open Infra

variable {calls : List Call} {c : Call} {pm : PerformanceMonitor} {log held : List Int}
  {now later : Int}

/-! ## The full log -/

/-- The time of the token that a call records. The other calls empty the list. -/
def Call.token : Call → Option Int
  | .recordToken now => some now
  | .startGeneration _ => none
  | .clear => none

/-- The times of all tokens since the last start or clear. -/
def fullLog (calls : List Call) : List Int := sinceReset Call.token calls

theorem fullLog_concat (calls : List Call) (c : Call) :
    fullLog (calls ++ [c]) = c.token.elim [] fun now => fullLog calls ++ [now] :=
  sinceReset_concat Call.token calls c

/-! ## The last second -/

/-- The times that are at most a second before `now`. -/
def lastSecond (now : Int) (times : List Int) : List Int :=
  times.filter fun t => now - tokenRateWindowMs ≤ t

theorem lastSecond_append (now : Int) (times times' : List Int) :
    lastSecond now (times ++ times') = lastSecond now times ++ lastSecond now times' :=
  List.filter_append ..

/-- A later second looks no further back. -/
theorem lastSecond_lastSecond (h : now ≤ later) (times : List Int) :
    lastSecond later (lastSecond now times) = lastSecond later times := by
  unfold lastSecond
  rw [List.filter_filter]
  refine List.filter_congr fun t _ => ?_
  simp only [Bool.and_eq_decide, decide_eq_true_eq, decide_eq_decide]
  omega

/-- What `recordToken` keeps: everything, or the last second of it. -/
theorem recordToken_timestamps (now : Int) (pm : PerformanceMonitor) :
    (pm.recordToken now).tokenTimestamps =
      if 1000 < (pm.tokenTimestamps ++ [now]).length
        then lastSecond now (pm.tokenTimestamps ++ [now])
      else pm.tokenTimestamps ++ [now] := by
  have hkept : (fun t : Int => !decide (t < now - tokenRateWindowMs)) =
      fun t => decide (now - tokenRateWindowMs ≤ t) := by
    funext t
    rw [← decide_not, decide_eq_decide]
    exact Int.not_lt
  rw [recordToken, hkept]
  rfl

theorem recordToken_rate (now : Int) (pm : PerformanceMonitor) :
    (pm.recordToken now).tokenRate = (lastSecond now (pm.tokenTimestamps ++ [now])).length :=
  List.countP_eq_length_filter

/-- After `recordToken`, the list is short or holds nothing older than a second. -/
theorem recordToken_pruned (now : Int) (pm : PerformanceMonitor) :
    (pm.recordToken now).tokenTimestamps.length ≤ 1000 ∨
      ∀ t ∈ (pm.recordToken now).tokenTimestamps, now - tokenRateWindowMs ≤ t := by
  rw [recordToken_timestamps]
  split
  · refine Or.inr fun t ht => ?_
    simpa using (List.mem_filter.mp ht).2
  · exact Or.inl (by omega)

/-! ## What is held and the log -/

/-- No second that starts at `now` or later can tell the held list from the log. -/
def Agrees (now : Int) (held log : List Int) : Prop :=
  ∀ later, now ≤ later → lastSecond later held = lastSecond later log

theorem Agrees.mono (h : Agrees now held log) (hle : now ≤ later) : Agrees later held log :=
  fun t ht => h t (Int.le_trans hle ht)

theorem agrees_recordToken (h : Agrees now pm.tokenTimestamps log) :
    Agrees now (pm.recordToken now).tokenTimestamps (log ++ [now]) := by
  intro later hle
  have hadded : lastSecond later (pm.tokenTimestamps ++ [now]) = lastSecond later (log ++ [now]) := by
    rw [lastSecond_append, lastSecond_append, h later hle]
  rw [recordToken_timestamps]
  split
  · rw [lastSecond_lastSecond hle, hadded]
  · exact hadded

/-- No reading of the clock in the calls was after `now`. -/
def NotAfter (now : Int) (calls : List Call) : Prop :=
  ∀ t ∈ calls.filterMap Call.reading, t ≤ now

theorem notAfter_concat :
    NotAfter now (calls ++ [c]) ↔ NotAfter now calls ∧ ∀ t ∈ c.reading, t ≤ now := by
  unfold NotAfter
  rw [List.filterMap_append, List.forall_mem_append]
  refine and_congr_right fun _ => ?_
  cases h : c.reading <;> simp [h]

theorem clockMonotone_concat :
    ClockMonotone (calls ++ [c]) ↔
      ClockMonotone calls ∧ ∀ now ∈ c.reading, NotAfter now calls := by
  unfold ClockMonotone NotAfter
  rw [List.filterMap_append, List.pairwise_append]
  cases h : c.reading <;> simp [h]

/-- From the latest reading on, the held list and the log cannot be told apart. -/
theorem agrees_of_calls (h : ClockMonotone calls) (hnow : NotAfter now calls) :
    Agrees now (calls.foldl call init).tokenTimestamps (fullLog calls) := by
  induction calls using List.reverseRecOn generalizing now with
  | nil => exact fun _ _ => rfl
  | append_singleton calls c ih =>
    obtain ⟨hcalls, hreading⟩ := clockMonotone_concat.mp h
    obtain ⟨-, hlast⟩ := notAfter_concat.mp hnow
    rw [List.foldl_append, List.foldl_cons, List.foldl_nil, fullLog_concat]
    cases c with
    | startGeneration t => exact fun _ _ => rfl
    | clear => exact fun _ _ => rfl
    | recordToken t =>
      exact (agrees_recordToken (ih hcalls (hreading t rfl))).mono (hlast t rfl)

/--
**The rate does not notice the pruning.**

Under a clock that never goes back, the rate after each `recordToken` is the number of tokens since
the last start or clear whose time is at most a second ago. The list is then short, or it holds
nothing older.
-/
theorem tokenRate_of_calls (h : ClockMonotone (calls ++ [.recordToken now])) :
    let monitor := (calls ++ [Call.recordToken now]).foldl call init
    monitor.tokenRate =
        (fullLog (calls ++ [.recordToken now])).countP (fun t => now - 1000 ≤ t) ∧
      (monitor.tokenTimestamps.length ≤ 1000 ∨
        ∀ t ∈ monitor.tokenTimestamps, now - 1000 ≤ t) := by
  intro monitor
  obtain ⟨hcalls, hreading⟩ := clockMonotone_concat.mp h
  have hmonitor : monitor = (calls.foldl call init).recordToken now := by
    simp only [monitor, List.foldl_append, List.foldl_cons, List.foldl_nil]
    rfl
  have hagrees := agrees_of_calls hcalls (hreading now rfl)
  rw [hmonitor]
  refine ⟨?_, recordToken_pruned now _⟩
  rw [recordToken_rate, lastSecond_append, hagrees now (Int.le_refl now), ← lastSecond_append,
    List.countP_eq_length_filter, fullLog_concat]
  rfl

/-- Two tokens of a generation, the second 600 ms before the next one. -/
def slowStart : List Call := [.startGeneration 0, .recordToken 10, .recordToken 900]

theorem tokenRate_of_calls_slowStart :
    ((slowStart ++ [Call.recordToken 1500]).foldl call init).tokenRate = 2 := by
  have hmonotone : ClockMonotone (slowStart ++ [.recordToken 1500]) := by decide
  rw [(tokenRate_of_calls hmonotone).1]
  decide

end Kaede.PerformanceMonitor
