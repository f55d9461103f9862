import Kaede.Properties.Numbered
import Mathlib.Data.List.Nodup

/-!
# The keys of the message list

`ChatScreen` uses the timestamp of a message as its key in the list. Timestamps never go down
along the list, so a new message clashes with another exactly when it clashes with the last one.

`distinctKeys_iff` — the keys stay distinct exactly when each message is added in a later
millisecond than the one before it
-/

namespace Kaede

open Infra

namespace ChatViewModel

variable {vm next s : ChatViewModel} {event : Event} {es : List Event}

/-- The step adds a message below the others. `clearChat` puts its message into an empty list. -/
def AppendsMessage (vm : ChatViewModel) : Event → Prop
  | .sendMessage _ => True
  | .contextMemories _ outcome | .memorySaved _ outcome => outcome = .error .exception
  | .generated _ outcome => outcome ≠ .error .error
  | .load (.returned j) =>
    (∃ load info, vm.loader.loads[j]? = some load ∧ load.outcome = .ok info) ∧
      100 ≤ vm.loader.loadProgress
  | .load (.collected _) => 100 ≤ vm.loader.loadProgress
  | _ => False

/-- A message is added only in a later millisecond than the last one. -/
def LaterThanLast (vm : ChatViewModel) (event : Event) : Prop :=
  AppendsMessage vm event → ∀ message ∈ vm.messages.getLast?, message.timestamp < vm.now

/-- No two messages of the list have the same key. -/
def DistinctKeys (vm : ChatViewModel) : Prop := (vm.messages.map (·.timestamp)).Nodup

/-- The list is in the order of the timestamps, and none is ahead of the clock. -/
structure InOrder (vm : ChatViewModel) : Prop where
  sorted : (vm.messages.map (·.timestamp)).Pairwise (· ≤ ·)
  past : ∀ message ∈ vm.messages, message.timestamp ≤ vm.now

/-! ## What a step does to the list -/

/-- The effect of a load tells whether it adds a message. -/
theorem appends_of_load {event : LoadEvent} {loader : ModelLoader} {effect : LoadEffect}
    (h : vm.loader.step event = some (loader, effect)) :
    (∃ load, effect = .ready load) ↔ AppendsMessage vm (.load event) := by
  have honProgress : ∀ j modelState,
      (∃ load, (ModelLoader.onProgress j vm.loader.loadProgress modelState).2 = .ready load) ↔
        100 ≤ vm.loader.loadProgress := by
    intro j modelState
    unfold ModelLoader.onProgress
    by_cases hready : 100 ≤ vm.loader.loadProgress
    · rw [if_pos hready]
      exact iff_of_true ⟨j, rfl⟩ hready
    · rw [if_neg hready]
      refine iff_of_false ?_ hready
      split <;> rintro ⟨_, ⟨⟩⟩
  cases ModelLoader.transition_of_step h with
  | retry native storage => exact iff_of_false (by rintro ⟨_, ⟨⟩⟩) id
  | wrote j progress pending outcome hj => exact iff_of_false (by rintro ⟨_, ⟨⟩⟩) id
  | returned j info hj =>
    rw [show AppendsMessage vm (.load (.returned j)) ↔ 100 ≤ vm.loader.loadProgress from
      and_iff_right ⟨_, info, hj, rfl⟩]
    exact honProgress j vm.loader.modelState
  | crashed j t hj =>
    refine iff_of_false (by rintro ⟨_, ⟨⟩⟩) ?_
    rintro ⟨⟨load, info, hload, hinfo⟩, _⟩
    rw [hj, Option.some.injEq] at hload
    rw [← hload] at hinfo
    cases hinfo
  | collected j load lastSeen hj hstage hnew => exact honProgress j vm.loader.modelState

/-- A step leaves the list alone, adds a message of this moment to it, or replaces it by one. -/
theorem messages_cases (h : Transition vm event next) :
    (next.messages = vm.messages ∧ ¬ AppendsMessage vm event) ∨
      (∃ message, next.messages = vm.messages ++ [message] ∧ message.timestamp = vm.now ∧
        AppendsMessage vm event) ∨
      (∃ message, next.messages = [message] ∧ message.timestamp = vm.now ∧
        ¬ AppendsMessage vm event) := by
  cases h with
  | tick ms => exact Or.inl ⟨rfl, id⟩
  | refused userMessage hready => exact Or.inr (Or.inl ⟨_, rfl, rfl, trivial⟩)
  | accepted userMessage hready => exact Or.inr (Or.inl ⟨_, rfl, rfl, trivial⟩)
  | promptBuilt i generation mood currentTime hi hphase => exact Or.inl ⟨rfl, by rintro ⟨⟩⟩
  | streamed i token generation prompt streamed hi hphase => exact Or.inl ⟨rfl, id⟩
  | replied i generation prompt streamed hi hphase himportance =>
    exact Or.inr (Or.inl ⟨_, rfl, rfl, by rintro ⟨⟩⟩)
  | repliedImportant i generation prompt streamed hi hphase himportance =>
    exact Or.inr (Or.inl ⟨_, rfl, rfl, by rintro ⟨⟩⟩)
  | saved i generation memory hi hphase => exact Or.inl ⟨rfl, by rintro ⟨⟩⟩
  | failed i event generation hi hresumes =>
    refine Or.inr (Or.inl ⟨_, rfl, rfl, ?_⟩)
    generalize generation.phase = phase at hresumes
    cases hresumes with
    | memories mood currentTime => rfl
    | generate prompt streamed => rintro ⟨⟩
    | save memory => rfl
  | died i event generation hi hresumes =>
    refine Or.inl ⟨rfl, ?_⟩
    generalize generation.phase = phase at hresumes
    cases hresumes with
    | memories mood currentTime => rintro ⟨⟩
    | generate prompt streamed => exact fun h => h rfl
    | save memory => rintro ⟨⟩
  | cleared => exact Or.inr (Or.inr ⟨_, rfl, rfl, id⟩)
  | loaded event loader effect hstep =>
    have happends := appends_of_load hstep
    cases effect with
    | silent => exact Or.inl ⟨rfl, fun h => by obtain ⟨_, ⟨⟩⟩ := happends.mpr h⟩
    | ready load => exact Or.inr (Or.inl ⟨_, rfl, rfl, happends.mp ⟨load, rfl⟩⟩)
    | crash => exact Or.inl ⟨rfl, fun h => by obtain ⟨_, ⟨⟩⟩ := happends.mpr h⟩

/-- Time does not go back. -/
theorem now_le (h : Transition vm event next) : vm.now ≤ next.now := by
  cases h with
  | tick ms => exact Int.le_add_of_nonneg_right (Int.natCast_nonneg ms)
  | loaded event loader effect hstep => cases effect <;> exact le_refl _
  | _ => exact le_refl _

/-! ## The list stays in order -/

theorem inOrder_step (vm : ChatViewModel) (event : Event) (next : ChatViewModel)
    (h : Transition vm event next) (ho : InOrder vm) : InOrder next := by
  have hnow := now_le h
  rcases messages_cases h with ⟨hsame, _⟩ | ⟨message, hnew, htime, _⟩ | ⟨message, honly, htime, _⟩
  · refine ⟨by rw [hsame]; exact ho.sorted, fun m hm => ?_⟩
    rw [hsame] at hm
    exact (ho.past m hm).trans hnow
  · refine ⟨?_, fun m hm => ?_⟩
    · rw [hnew, List.map_append, List.pairwise_append]
      refine ⟨ho.sorted, List.pairwise_singleton _ _, ?_⟩
      intro a ha b hb
      obtain ⟨m, hm, rfl⟩ := List.mem_map.mp ha
      rw [List.map_singleton, List.mem_singleton] at hb
      rw [hb, htime]
      exact ho.past m hm
    · rw [hnew] at hm
      rcases List.mem_append.mp hm with hm | hm
      · exact (ho.past m hm).trans hnow
      · rw [List.mem_singleton] at hm
        rw [hm, htime]
        exact hnow
  · refine ⟨by rw [honly]; exact List.pairwise_singleton _ _, fun m hm => ?_⟩
    rw [honly, List.mem_singleton] at hm
    rw [hm, htime]
    exact hnow

/-- In order, the clock reads a new time exactly when it reads a later one than the last. -/
theorem InOrder.now_fresh_iff (h : InOrder vm) :
    vm.now ∉ vm.messages.map (·.timestamp) ↔
      ∀ message ∈ vm.messages.getLast?, message.timestamp < vm.now := by
  constructor
  · intro hfresh message hmessage
    have hmem := List.mem_of_getLast? hmessage
    have hne : message.timestamp ≠ vm.now :=
      fun heq => hfresh (heq ▸ List.mem_map_of_mem hmem)
    exact lt_of_le_of_ne (h.past message hmem) hne
  · intro hlast hmem
    obtain ⟨message, hmessage, heq⟩ := List.mem_map.mp hmem
    rcases List.eq_nil_or_concat vm.messages with hnil | ⟨init, last, hconcat⟩
    · rw [hnil] at hmessage
      cases hmessage
    · rw [List.concat_eq_append] at hconcat
      have hlt := hlast last (by rw [hconcat]; exact List.getLast?_concat)
      have hsorted := h.sorted
      rw [hconcat, List.map_append, List.pairwise_append] at hsorted
      rw [hconcat] at hmessage
      rcases List.mem_append.mp hmessage with hmessage | hmessage
      · have hle := hsorted.2.2 message.timestamp (List.mem_map_of_mem hmessage) last.timestamp
          (List.mem_singleton.mpr rfl)
        omega
      · rw [List.mem_singleton] at hmessage
        rw [hmessage] at heq
        omega

/-- The keys stay distinct over a step exactly when it adds no message in the millisecond of the
last one. -/
theorem distinctKeys_step_iff (h : Transition vm event next) (ho : InOrder vm)
    (hd : DistinctKeys vm) : DistinctKeys next ↔ LaterThanLast vm event := by
  unfold DistinctKeys LaterThanLast
  rcases messages_cases h with ⟨hsame, hno⟩ | ⟨message, hnew, htime, hyes⟩ | ⟨message, honly, _, hno⟩
  · rw [hsame]
    exact iff_of_true hd fun happends => absurd happends hno
  · rw [hnew, List.map_append, List.map_singleton, htime, List.nodup_append,
      ← ho.now_fresh_iff]
    constructor
    · intro hall _ hmem
      exact hall.2.2 vm.now hmem vm.now (List.mem_singleton.mpr rfl) rfl
    · intro hfresh
      refine ⟨hd, List.nodup_singleton _, ?_⟩
      intro a ha b hb heq
      rw [List.mem_singleton] at hb
      rw [heq, hb] at ha
      exact hfresh hyes ha
  · rw [honly]
    exact iff_of_true (List.nodup_singleton _) fun happends => absurd happends hno

/-- **The keys are distinct in every state of a run exactly when each message is added in a later
millisecond than the one before it.** -/
theorem distinctKeys_iff {now : Int} {database : MemoryTable} {isNativeLoaded : Bool}
    {native : NativeLayer} {storage : Storage}
    (hrun : machine.run (init now database isNativeLoaded native storage) es = some vm) :
    (∀ xs ys t, es = xs ++ ys →
        machine.run (init now database isNativeLoaded native storage) xs = some t →
        DistinctKeys t) ↔
      machine.Along LaterThanLast (init now database isNativeLoaded native storage) es := by
  have hempty : InOrder (init now database isNativeLoaded native storage) :=
    ⟨List.Pairwise.nil, by simp [init]⟩
  constructor
  · intro hdistinct
    refine Machine.along_iff_prefix.mpr fun xs e ys t hes ht => ?_
    rw [hes] at hrun
    obtain ⟨u, hstep, _⟩ := Machine.step_of_run machine hrun ht
    have ho := invariant_of_run inOrder_step hempty ht
    have hbefore := hdistinct xs (e :: ys) t hes ht
    have hafter := hdistinct (xs ++ [e]) ys u (by rw [hes]; simp)
      (Machine.run_concat machine ht hstep)
    exact (distinctKeys_step_iff (transition_of_step hstep) ho hbefore).mp hafter
  · rintro hlater xs ys t rfl ht
    have hprefix := (Machine.along_append.mp hlater).1
    have hinv : InOrder t ∧ DistinctKeys t :=
      invariant_of_run_along (I := fun vm => InOrder vm ∧ DistinctKeys vm)
        (fun vm event next h hg hi => ⟨inOrder_step vm event next h hi.1,
          (distinctKeys_step_iff h hi.1 hi.2).mpr hg⟩)
        hprefix ⟨hempty, List.nodup_nil⟩ ht
    exact hinv.2

theorem distinctKeys_iff_exchange :
    ∃ vm, machine.run phone (boot ++ [.tick 5] ++ exchange (utf16 "hi") (utf16 "yo")) = some vm ∧
      ((∀ xs ys t, boot ++ [.tick 5] ++ exchange (utf16 "hi") (utf16 "yo") = xs ++ ys →
          machine.run phone xs = some t → DistinctKeys t) ↔
        machine.Along LaterThanLast phone
          (boot ++ [.tick 5] ++ exchange (utf16 "hi") (utf16 "yo"))) := by
  have hsome : (machine.run phone (boot ++ [.tick 5] ++
      exchange (utf16 "hi") (utf16 "yo"))).isSome = true := by decide +kernel
  obtain ⟨vm, hrun⟩ := exists_run_of_isSome hsome
  exact ⟨vm, hrun, distinctKeys_iff hrun⟩

/-- A message whose memories cannot be fetched. The error follows in the same millisecond. -/
def failingAtOnce : List Event :=
  boot ++ [.tick 5, .sendMessage (utf16 "hi"), .contextMemories 0 (.error .exception)]

theorem failingAtOnce_same_key :
    ∃ vm, machine.run phone failingAtOnce = some vm ∧
      vm.messages.map (·.timestamp) = [0, 5, 5] ∧ ¬ DistinctKeys vm := by
  have hview : (machine.run phone failingAtOnce).map (fun vm =>
      vm.messages.map (·.timestamp)) = some [0, 5, 5] := by decide +kernel
  obtain ⟨vm, hrun, hvm⟩ := Option.map_eq_some_iff.mp hview
  refine ⟨vm, hrun, hvm, fun h => ?_⟩
  rw [DistinctKeys, hvm] at h
  revert h
  decide

end ChatViewModel

end Kaede
