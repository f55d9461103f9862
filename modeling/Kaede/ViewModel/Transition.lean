import Kaede.ViewModel.ChatViewModel

/-!
# What a step of the view model can do

`Transition` has one constructor for each thing that can happen, with its guard and the next
state. `transition_of_step` is the only place where `step` is taken apart. Every invariant is
proved by cases on it.
-/

namespace Kaede

open Infra

/-- The event resumes the generation at place `i`, which waits in this phase, with this outcome. -/
inductive Resumes (i : Nat) (outcome : Except Throwable Unit) : Phase → Event → Prop where
  | memories (mood : Mood) (currentTime : Int) :
    Resumes i outcome (.awaitMemories mood currentTime) (.contextMemories i outcome)
  | generate (prompt streamed : Text) :
    Resumes i outcome (.awaitGenerate prompt streamed) (.generated i outcome)
  | save (memory : MemoryEntity) :
    Resumes i outcome (.awaitSave memory) (.memorySaved i outcome)

namespace ChatViewModel

/-- The effect of a `sendMessage` that finds the model ready. -/
def accept (userMessage : Text) (vm : ChatViewModel) : ChatViewModel :=
  let reading := (vm.personalityManager.updateMood vm.now userMessage).getCurrentMood vm.now
  let next := vm.addMessage userMessage true (.user vm.trace.calls)
  let next := next.addToBuffer ⟨.user, userMessage, vm.trace.calls⟩ (utf16 "User: " ++ userMessage)
  { next with
    personalityManager := reading.2
    currentMood := reading.1
    trace := { next.trace with sent := next.trace.sent ++ [userMessage] } }.generateResponse userMessage
      vm.trace.calls vm.trace.sinceClear

/-- The memory that a generation saves. -/
def memoryOf (generation : Generation) (vm : ChatViewModel) : MemoryEntity :=
  MemoryRepository.memoryToSave vm.now (utf16 "User said: " ++ generation.userMessage)
    (PromptBuilder.calculateImportance generation.userMessage) .conversation
    (vm.personalityManager.getCurrentMood vm.now).1.name

inductive Transition (vm : ChatViewModel) : Event → ChatViewModel → Prop where
  | tick (ms : Nat) : Transition vm (.tick ms) { vm with now := vm.now + ms }
  | refused (userMessage : Text) (hready : vm.loader.modelState.isReady = false) :
    Transition vm (.sendMessage userMessage)
      (vm.addSystemMessage (utf16 "Kaede is still loading... Please wait."))
  | accepted (userMessage : Text) (hready : vm.loader.modelState.isReady = true) :
    Transition vm (.sendMessage userMessage) (vm.accept userMessage)
  | promptBuilt (i : Nat) (generation : Generation) (mood : Mood) (currentTime : Int)
    (hi : vm.generations[i]? = some generation)
    (hphase : generation.phase = .awaitMemories mood currentTime) :
    Transition vm (.contextMemories i (.ok ()))
      (vm.await i generation (.awaitGenerate (vm.prompt generation mood currentTime) []))
  | streamed (i : Nat) (token : Text) (generation : Generation) (prompt streamed : Text)
    (hi : vm.generations[i]? = some generation)
    (hphase : generation.phase = .awaitGenerate prompt streamed) :
    Transition vm (.onToken i token)
      ({ vm with currentResponse := vm.currentResponse ++ token }.await i generation
        (.awaitGenerate prompt (streamed ++ token)))
  | replied (i : Nat) (generation : Generation) (prompt streamed : Text)
    (hi : vm.generations[i]? = some generation)
    (hphase : generation.phase = .awaitGenerate prompt streamed)
    (himportance : PromptBuilder.calculateImportance generation.userMessage < 5) :
    Transition vm (.generated i (.ok ())) ((vm.addReply generation streamed).finish i)
  | repliedImportant (i : Nat) (generation : Generation) (prompt streamed : Text)
    (hi : vm.generations[i]? = some generation)
    (hphase : generation.phase = .awaitGenerate prompt streamed)
    (himportance : 5 ≤ PromptBuilder.calculateImportance generation.userMessage) :
    Transition vm (.generated i (.ok ()))
      ({ vm.addReply generation streamed with
          personalityManager := (vm.personalityManager.getCurrentMood vm.now).2 }.await i
        generation (.awaitSave (vm.memoryOf generation)))
  | saved (i : Nat) (generation : Generation) (memory : MemoryEntity)
    (hi : vm.generations[i]? = some generation) (hphase : generation.phase = .awaitSave memory) :
    Transition vm (.memorySaved i (.ok ()))
      ({ vm with database := MemoryRepository.saveMemory memory vm.database }.finish i)
  | failed (i : Nat) (event : Event) (generation : Generation)
    (hi : vm.generations[i]? = some generation)
    (hresumes : Resumes i (.error .exception) generation.phase event) :
    Transition vm event (vm.fail i generation)
  | died (i : Nat) (event : Event) (generation : Generation)
    (hi : vm.generations[i]? = some generation)
    (hresumes : Resumes i (.error .error) generation.phase event) :
    Transition vm event { vm.finish i with crashed := true }
  | cleared : Transition vm .clearChat vm.clearChat
  | loaded (event : LoadEvent) (loader : ModelLoader) (effect : LoadEffect)
    (hstep : vm.loader.step event = some (loader, effect)) :
    Transition vm (.load event) (vm.onLoad loader effect)

variable {vm next : ChatViewModel} {event : Event}

theorem not_crashed_of_step (h : vm.step event = some next) : vm.crashed = false := by
  unfold step at h
  by_cases hc : vm.crashed
  · rw [if_pos hc] at h
    cases h
  · exact Bool.eq_false_of_not_eq_true hc

theorem sendMessage_of_ready (userMessage : Text) (h : vm.loader.modelState.isReady = true) :
    vm.sendMessage userMessage = vm.accept userMessage := by
  unfold sendMessage
  rw [if_pos h]
  rfl

theorem sendMessage_of_not_ready (userMessage : Text)
    (h : vm.loader.modelState.isReady = false) :
    vm.sendMessage userMessage =
      vm.addSystemMessage (utf16 "Kaede is still loading... Please wait.") := by
  unfold sendMessage
  rw [if_neg (by rw [h]; exact Bool.false_ne_true)]

/-- How a call ends decides among the step of the `try` block, its failure and its death. -/
theorem transition_resume {i : Nat} {generation : Generation} {outcome : Except Throwable Unit}
    {after : ChatViewModel} (hi : vm.generations[i]? = some generation)
    (hresumes : Resumes i outcome generation.phase event)
    (hok : outcome = .ok () → Transition vm event after) :
    Transition vm event (vm.resume i generation outcome after) := by
  cases outcome with
  | ok u => exact hok rfl
  | error t =>
    cases t with
    | exception => exact .failed i event generation hi hresumes
    | error => exact .died i event generation hi hresumes

/-- **Every step is one of the transitions.** -/
theorem transition_of_step (h : vm.step event = some next) : Transition vm event next := by
  have hc := not_crashed_of_step h
  unfold step at h
  rw [if_neg (by rw [hc]; exact Bool.false_ne_true)] at h
  cases event with
  | tick ms =>
    cases h
    exact .tick ms
  | sendMessage userMessage =>
    cases h
    cases hr : vm.loader.modelState.isReady with
    | true => rw [sendMessage_of_ready userMessage hr]; exact .accepted userMessage hr
    | false => rw [sendMessage_of_not_ready userMessage hr]; exact .refused userMessage hr
  | contextMemories i outcome =>
    obtain ⟨generation, hi, h⟩ := Option.bind_eq_some_iff.mp h
    split at h
    · next mood currentTime hphase =>
      cases h
      refine transition_resume hi (hphase ▸ .memories mood currentTime) ?_
      rintro rfl
      exact .promptBuilt i generation mood currentTime hi hphase
    · cases h
  | onToken i token =>
    obtain ⟨generation, hi, h⟩ := Option.bind_eq_some_iff.mp h
    split at h
    · next prompt streamed hphase =>
      cases h
      exact .streamed i token generation prompt streamed hi hphase
    · cases h
  | generated i outcome =>
    obtain ⟨generation, hi, h⟩ := Option.bind_eq_some_iff.mp h
    split at h
    · next prompt streamed hphase =>
      cases h
      refine transition_resume hi (hphase ▸ .generate prompt streamed) ?_
      rintro rfl
      unfold saveIfImportant
      dsimp only
      by_cases himportance : 5 ≤ PromptBuilder.calculateImportance generation.userMessage
      · rw [if_pos himportance]
        exact .repliedImportant i generation prompt streamed hi hphase himportance
      · rw [if_neg himportance]
        exact .replied i generation prompt streamed hi hphase (by omega)
    · cases h
  | memorySaved i outcome =>
    obtain ⟨generation, hi, h⟩ := Option.bind_eq_some_iff.mp h
    split at h
    · next memory hphase =>
      cases h
      refine transition_resume hi (hphase ▸ .save memory) ?_
      rintro rfl
      exact .saved i generation memory hi hphase
    · cases h
  | clearChat =>
    cases h
    exact .cleared
  | load event =>
    obtain ⟨⟨loader, effect⟩, hstep, h⟩ := Option.map_eq_some_iff.mp h
    cases h
    exact .loaded event loader effect hstep

/-- An accepted message starts a generation that waits for the memories. -/
theorem accept_generations (vm : ChatViewModel) (userMessage : Text) :
    ∃ generation, (vm.accept userMessage).generations = vm.generations ++ [generation] ∧
      generation.userMessage = userMessage ∧ generation.call = vm.trace.calls ∧
      generation.earlier = vm.trace.sinceClear ∧
      ∃ mood, generation.phase = .awaitMemories mood vm.now :=
  ⟨_, rfl, rfl, rfl, rfl, _, rfl⟩

@[simp] theorem accept_calls (vm : ChatViewModel) (userMessage : Text) :
    (vm.accept userMessage).trace.calls = vm.trace.calls + 1 :=
  List.length_append

/-- A step of a load is the loader's, and nothing else happens. -/
theorem loaded_of_transition {loadEvent : LoadEvent} (h : Transition vm (.load loadEvent) next) :
    ∃ loader effect, vm.loader.step loadEvent = some (loader, effect) ∧
      next = vm.onLoad loader effect := by
  cases h with
  | failed i event generation hi hresumes =>
    generalize generation.phase = phase at hresumes
    cases hresumes
  | died i event generation hi hresumes =>
    generalize generation.phase = phase at hresumes
    cases hresumes
  | loaded event loader effect hstep => exact ⟨loader, effect, hstep, rfl⟩

theorem clearChat_of_step {cleared : ChatViewModel} (h : vm.step .clearChat = some cleared) :
    vm.crashed = false ∧ cleared = vm.clearChat := by
  have hc := not_crashed_of_step h
  rw [step, if_neg (by rw [hc]; exact Bool.false_ne_true)] at h
  exact ⟨hc, (Option.some.inj h).symm⟩

/-- A run that ends with a clear. -/
theorem clearChat_of_run {s : ChatViewModel} {es : List Event}
    (h : machine.run s (es ++ [.clearChat]) = some vm) :
    ∃ before, machine.run s es = some before ∧ before.crashed = false ∧ vm = before.clearChat := by
  obtain ⟨before, hrun, hstep⟩ := (Machine.run_concat_eq_some machine).mp h
  exact ⟨before, hrun, clearChat_of_step hstep⟩

/-! ## Invariants of runs -/

theorem exists_run_of_isSome {s : ChatViewModel} {es : List Event}
    (h : (machine.run s es).isSome = true) : ∃ vm, machine.run s es = some vm :=
  Option.isSome_iff_exists.mp h

/-- What every transition preserves, every run preserves. -/
theorem invariant_of_run {I : ChatViewModel → Prop} {s : ChatViewModel} {es : List Event}
    (hstep : ∀ vm event next, Transition vm event next → I vm → I next) (hs : I s)
    (hrun : machine.run s es = some vm) : I vm :=
  Machine.run_invariant
    (fun vm event next hi h => hstep vm event next (transition_of_step h) hi) hs hrun

/-- What every allowed transition preserves, every run of allowed steps preserves. -/
theorem invariant_of_run_along {I : ChatViewModel → Prop} {G : ChatViewModel → Event → Prop}
    {s : ChatViewModel} {es : List Event}
    (hstep : ∀ vm event next, Transition vm event next → G vm event → I vm → I next)
    (ha : machine.Along G s es) (hs : I s) (hrun : machine.run s es = some vm) : I vm :=
  Machine.run_invariant_along
    (fun vm event next hi hg h => hstep vm event next (transition_of_step h) hg hi) ha hs hrun

end ChatViewModel

end Kaede
