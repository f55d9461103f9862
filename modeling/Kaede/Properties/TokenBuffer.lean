import Kaede.Ai.TokenBuffer
import Mathlib.Data.List.Chain

/-!
# What the flow operators do to a stream of tokens

* `smoothBuffer_lossless` — nothing is lost, and little is missing at any moment
* `debounceTokens_iff` — the debounced texts grow exactly when the last token is not sent at once
-/

namespace Kaede

open Infra

/-! ## `smoothBuffer` -/

namespace Smoothing

/-- Sent and buffered together are what has been received. -/
theorem onToken_lossless (targetDelayMs : Int64) (s : Smoothing) (arrival : Arrival) :
    (s.onToken targetDelayMs arrival).2.toList.flatten ++
        (s.onToken targetDelayMs arrival).1.buffer =
      s.buffer ++ arrival.token := by
  unfold onToken
  dsimp only
  split
  · simp
  · simp

theorem afterEach_lossless (targetDelayMs start : Int64) (arrivals : List Arrival) :
    ((smoothOperator targetDelayMs start).afterEach arrivals).2.flatten ++
        ((smoothOperator targetDelayMs start).afterEach arrivals).1.buffer =
      received arrivals := by
  refine (smoothOperator targetDelayMs start).afterEach_invariant
    (I := fun arrivals s sent => sent.flatten ++ s.buffer = received arrivals) rfl ?_
  intro before arrival s sent _ h
  rw [List.flatten_append, List.append_assoc]
  show sent.flatten ++ ((s.onToken targetDelayMs arrival).2.toList.flatten ++
    (s.onToken targetDelayMs arrival).1.buffer) = received (before ++ [arrival])
  rw [onToken_lossless, ← List.append_assoc, h, received_append, received_singleton]

end Smoothing

/--
**`smoothBuffer` loses nothing and holds little back.**

It holds for any clock readings and any target delay. Whatever comes later, less than 20 units of
what has been received are still unsent.
-/
theorem smoothBuffer_lossless (targetDelayMs start : Int64) (arrivals later : List Arrival) :
    (smoothBuffer targetDelayMs start arrivals).flatten = received arrivals ∧
      ((smoothOperator targetDelayMs start).afterEach arrivals).2 <+:
        smoothBuffer targetDelayMs start (arrivals ++ later) ∧
      ∃ missing, ((smoothOperator targetDelayMs start).afterEach arrivals).2.flatten ++ missing =
        received arrivals ∧ missing.length < 20 := by
  have hlossless := Smoothing.afterEach_lossless targetDelayMs start arrivals
  have hshort := ((smoothOperator targetDelayMs start).afterEach arrivals).1.buffer_lt
  refine ⟨?_, FlowOperator.sent_prefix_transform _ (List.prefix_append _ _), _, hlossless, hshort⟩
  rw [smoothBuffer, FlowOperator.transform_eq, List.flatten_append, ← hlossless]
  congr 1
  show List.flatten (Option.toList (if _ then none else some _)) = _
  split
  · next hempty => exact (List.isEmpty_iff.mp hempty).symm
  · exact List.flatten_singleton

/-- The second token does not fit any more, so both are sent. The third one is flushed. -/
example : smoothBuffer 50 0 [⟨utf16 "What a lovely", 10⟩, ⟨utf16 " evening", 20⟩, ⟨utf16 "!", 15⟩] =
    [utf16 "What a lovely evening", utf16 "!"] := by decide

/-! ## `debounceTokens` -/

/-- The reading at which the current window starts: the last one that came at least `delayMs`
after the start of the window before it. The first window starts at 0. -/
def windowStart (delayMs : Int64) (readings : List Int64) : Int64 :=
  readings.foldl (fun start now => if delayMs ≤ now - start then now else start) 0

theorem windowStart_concat (delayMs : Int64) (readings : List Int64) (now : Int64) :
    windowStart delayMs (readings ++ [now]) =
      if delayMs ≤ now - windowStart delayMs readings then now
      else windowStart delayMs readings := by
  rw [windowStart, List.foldl_append]
  rfl

/-- Growing prefixes without repeats, up to the whole text, and not too often. -/
structure Debounced (delayMs : Int64) (arrivals : List Arrival) (sent : List Sent) : Prop where
  prefixes : ∀ s ∈ sent, s.text <+: received arrivals
  growing : sent.IsChain fun a b => a.text.length < b.text.length
  complete : arrivals ≠ [] → sent.getLast?.map (·.text) = some (received arrivals)
  /-- Only the last send carries no time. -/
  apart : (sent.filterMap (·.time)).IsChain fun t t' => delayMs.toInt ≤ t'.toInt - t.toInt

/-- A difference of `Long`s that passes the test is no overflow. -/
theorem le_sub_of_elapsed {delayMs t now : Int64} (hdelay : 0 ≤ delayMs) (hle : t ≤ now)
    (h : delayMs ≤ now - t) : delayMs.toInt ≤ now.toInt - t.toInt := by
  rw [Int64.le_iff_toInt_le, Int64.toInt_zero] at hdelay
  rw [Int64.le_iff_toInt_le] at hle
  rw [Int64.le_iff_toInt_le, Int64.toInt_sub, Int.bmod_eq_emod] at h
  have hlt := now.toInt_lt
  have hge := t.le_toInt
  split at h <;> omega

namespace Debouncing

/-- What holds after any number of tokens. -/
structure Collected (delayMs : Int64) (arrivals : List Arrival) (d : Debouncing)
    (sent : List Sent) : Prop where
  text : d.lastText = received arrivals
  window : d.lastEmitTime = windowStart delayMs (arrivals.map (·.now))
  prefixes : ∀ s ∈ sent, s.text <+: received arrivals
  growing : sent.Pairwise fun a b => a.text.length < b.text.length
  /-- The window starts with the last send. -/
  times : ∀ t ∈ sent.filterMap (·.time), t ≤ d.lastEmitTime ∧
    ∃ arrival ∈ arrivals, arrival.now = d.lastEmitTime
  apart : (sent.filterMap (·.time)).Pairwise fun t t' => delayMs.toInt ≤ t'.toInt - t.toInt

variable {delayMs : Int64} {arrivals : List Arrival} {arrival : Arrival} {d : Debouncing}
  {sent : List Sent}

theorem Collected.hold (h : Collected delayMs arrivals d sent)
    (hearly : ¬ delayMs ≤ arrival.now - d.lastEmitTime) :
    Collected delayMs (arrivals ++ [arrival])
      { d with lastText := d.lastText ++ arrival.token } sent where
  text := by rw [h.text, received_append, received_singleton]
  window := by
    rw [List.map_append, List.map_singleton, windowStart_concat, ← h.window, if_neg hearly]
  prefixes := fun s hs => (h.prefixes s hs).trans (by simp)
  growing := h.growing
  times := fun t ht => by
    obtain ⟨hle, a, ha, hnow⟩ := h.times t ht
    exact ⟨hle, a, List.mem_append_left _ ha, hnow⟩
  apart := h.apart

theorem Collected.send (h : Collected delayMs arrivals d sent) (hdelay : 0 ≤ delayMs)
    (htoken : arrival.token ≠ []) (hclock : ∀ a ∈ arrivals, a.now ≤ arrival.now)
    (htime : delayMs ≤ arrival.now - d.lastEmitTime) :
    Collected delayMs (arrivals ++ [arrival])
      { lastText := d.lastText ++ arrival.token, lastEmitTime := arrival.now }
      (sent ++ [⟨d.lastText ++ arrival.token, some arrival.now⟩]) := by
  have htext : d.lastText ++ arrival.token = received (arrivals ++ [arrival]) := by
    rw [h.text, received_append, received_singleton]
  have hpositive : 0 < arrival.token.length := List.length_pos_of_ne_nil htoken
  refine ⟨htext, ?window, ?prefixes, ?growing, ?times, ?apart⟩
  case window =>
    rw [List.map_append, List.map_singleton, windowStart_concat, ← h.window, if_pos htime]
  case prefixes =>
    intro s hs
    rcases List.mem_append.mp hs with hs | hs
    · exact (h.prefixes s hs).trans (by simp)
    · rw [List.mem_singleton.mp hs, htext]
  case growing =>
    refine List.pairwise_append.mpr ⟨h.growing, List.pairwise_singleton _ _, ?_⟩
    intro a ha b hb
    have hle := (h.prefixes a ha).length_le
    rw [List.mem_singleton.mp hb, List.length_append, h.text]
    omega
  case times =>
    intro t ht
    refine ⟨?_, arrival, by simp, rfl⟩
    rw [List.filterMap_append] at ht
    rcases List.mem_append.mp ht with ht | ht
    · obtain ⟨hle, a, ha, hnow⟩ := h.times t ht
      exact Int64.le_trans hle (hnow ▸ hclock a ha)
    · have heq : t = arrival.now := by simpa using ht
      exact heq ▸ Int64.le_refl _
  case apart =>
    rw [List.filterMap_append]
    refine List.pairwise_append.mpr ⟨h.apart, List.pairwise_singleton _ _, ?_⟩
    intro t ht t' ht'
    have heq : t' = arrival.now := by simpa using ht'
    obtain ⟨hle, a, ha, hnow⟩ := h.times t ht
    have hlast := le_sub_of_elapsed hdelay (hnow ▸ hclock a ha) htime
    rw [Int64.le_iff_toInt_le] at hle
    rw [heq]
    omega

theorem Collected.onToken (h : Collected delayMs arrivals d sent) (hdelay : 0 ≤ delayMs)
    (htoken : arrival.token ≠ []) (hclock : ∀ a ∈ arrivals, a.now ≤ arrival.now) :
    Collected delayMs (arrivals ++ [arrival]) (d.onToken delayMs arrival).1
      (sent ++ (d.onToken delayMs arrival).2.toList) := by
  unfold Debouncing.onToken
  dsimp only
  split
  · next htime => exact h.send hdelay htoken hclock htime
  · next hearly => simpa using h.hold hearly

theorem collected (hdelay : 0 ≤ delayMs) (htokens : ∀ arrival ∈ arrivals, arrival.token ≠ [])
    (hclock : arrivals.Pairwise fun a b => a.now ≤ b.now) :
    Collected delayMs arrivals ((debounceOperator delayMs).afterEach arrivals).1
      ((debounceOperator delayMs).afterEach arrivals).2 := by
  refine (debounceOperator delayMs).afterEach_invariant (I := Collected delayMs)
    ⟨rfl, rfl, by simp, List.Pairwise.nil, by simp, List.Pairwise.nil⟩ ?_
  intro before arrival d sent hbefore h
  refine h.onToken hdelay (htokens arrival (hbefore.subset (by simp))) ?_
  have hpairwise := hclock.sublist hbefore.sublist
  exact fun a ha => (List.pairwise_append.mp hpairwise).2.2 a ha arrival List.mem_cons_self

/-- The text that is sent when the flow completes. -/
theorem Collected.onCompletion (h : Collected delayMs arrivals d sent)
    (hne : received arrivals ≠ []) :
    (debounceOperator delayMs).onCompletion d = some ⟨received arrivals, none⟩ := by
  show (if d.lastText.isEmpty then none else some (⟨d.lastText, none⟩ : Sent)) = _
  rw [h.text, if_neg (by simpa using hne)]

/-- A last send that adds something completes what was collected before it. -/
theorem Collected.debounced (h : Collected delayMs arrivals d sent)
    (htoken : arrival.token ≠ []) :
    Debounced delayMs (arrivals ++ [arrival])
      (sent ++ [⟨received (arrivals ++ [arrival]), none⟩]) where
  prefixes := fun s hs => by
    rcases List.mem_append.mp hs with hs | hs
    · exact (h.prefixes s hs).trans (by simp)
    · rw [List.mem_singleton.mp hs]
  growing := by
    refine (List.pairwise_append.mpr ⟨h.growing, List.pairwise_singleton _ _, ?_⟩).isChain
    intro a ha b hb
    have hle := (h.prefixes a ha).length_le
    have hpositive : 0 < arrival.token.length := List.length_pos_of_ne_nil htoken
    rw [List.mem_singleton.mp hb, received_append, received_singleton, List.length_append]
    omega
  complete := fun _ => by simp
  apart := by
    rw [List.filterMap_append]
    simpa using h.apart.isChain

end Debouncing

/--
**The debounced texts grow exactly when the last token is not sent at once.**

A token that comes `delayMs` or more after the start of the window is sent with everything before
it. If it is the last one, the flush sends the same text again.
-/
theorem debounceTokens_iff {delayMs : Int64} {arrivals : List Arrival} (hdelay : 0 ≤ delayMs)
    (htokens : ∀ arrival ∈ arrivals, arrival.token ≠ [])
    (hclock : arrivals.Pairwise fun a b => a.now ≤ b.now) :
    Debounced delayMs arrivals (debounceTokens delayMs arrivals) ↔
      ∀ before last, arrivals = before ++ [last] →
        last.now - windowStart delayMs (before.map (·.now)) < delayMs := by
  have hcollected := Debouncing.collected hdelay htokens hclock
  rcases List.eq_nil_or_concat' arrivals with rfl | ⟨before, last, rfl⟩
  · have hnone : Debounced delayMs [] [] :=
      ⟨by simp, List.isChain_nil, fun hne => absurd rfl hne, List.isChain_nil⟩
    exact iff_of_true hnone (by simp)
  have htoken : last.token ≠ [] := htokens last (by simp)
  have hne : received (before ++ [last]) ≠ [] := by simp [htoken]
  have hbefore := Debouncing.collected hdelay (fun a ha => htokens a (List.mem_append_left _ ha))
    (List.pairwise_append.mp hclock).1
  rw [debounceTokens, FlowOperator.transform_eq, hcollected.onCompletion hne,
    FlowOperator.afterEach_concat]
  generalize (debounceOperator delayMs).afterEach before = state at hbefore
  obtain ⟨d, sent⟩ := state
  show Debounced _ _ (sent ++ (d.onToken delayMs last).2.toList ++ [_]) ↔ _
  unfold Debouncing.onToken
  dsimp only
  by_cases htime : delayMs ≤ last.now - d.lastEmitTime
  · -- the flush repeats the text that has just been sent
    rw [if_pos htime]
    refine iff_of_false (fun hdebounced => ?_) fun hlast => ?_
    · have hrepeat := hdebounced.growing
      rw [hbefore.text, List.append_assoc] at hrepeat
      have hlt := (List.isChain_append_cons_cons.mp hrepeat).2.1
      simp at hlt
    · exact absurd (hbefore.window ▸ htime) (Int64.not_le.mpr (hlast before last rfl))
  · rw [if_neg htime]
    refine iff_of_true ?_ fun xs x heq => ?_
    · simpa using hbefore.debounced htoken
    · obtain ⟨rfl, hx⟩ := List.append_inj' heq rfl
      rw [List.singleton_inj] at hx
      rw [← hx, ← hbefore.window]
      exact Int64.not_le.mp htime

/-! ### Examples -/

/-- The first token is sent at once, the second one is flushed. -/
theorem debounceTokens_iff_twoTokens :
    Debounced 30 [⟨utf16 "Hel", 1000⟩, ⟨utf16 "lo", 1010⟩]
      [⟨utf16 "Hel", some 1000⟩, ⟨utf16 "Hello", none⟩] := by
  have h := @debounceTokens_iff 30 [⟨utf16 "Hel", 1000⟩, ⟨utf16 "lo", 1010⟩]
    (by decide) (by decide) (by decide)
  refine h.mpr fun before last heq => ?_
  have heq : [_] ++ [_] = before ++ [last] := heq
  obtain ⟨rfl, hlast⟩ := List.append_inj' heq rfl
  rw [List.singleton_inj] at hlast
  subst hlast
  decide

/-- A single token is emitted twice. -/
theorem debounceTokens_repeats :
    ¬ Debounced 30 [⟨utf16 "Hi", 1700000000000⟩]
      (debounceTokens 30 [⟨utf16 "Hi", 1700000000000⟩]) := by
  intro h
  have hsent : debounceTokens 30 [⟨utf16 "Hi", 1700000000000⟩] =
      [⟨utf16 "Hi", some 1700000000000⟩, ⟨utf16 "Hi", none⟩] := by decide
  rw [hsent] at h
  exact absurd (List.isChain_pair.mp h.growing) (by decide)

end Kaede
