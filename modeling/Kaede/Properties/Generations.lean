import Kaede.Properties.Numbered

/-!
# Generations that run one after the other

All generations share `currentResponse` and `isTyping`. Nothing keeps two of them apart but the
input field of `ChatScreen`, which is enabled only while `isTyping` is false.

`undisturbed_of_run` — as long as messages are sent only then, each reply is what its own
generation streamed.
-/

namespace Kaede

open Infra

namespace ChatViewModel

variable {vm next s : ChatViewModel} {event : Event} {es : List Event}

/-! ## The accumulator -/

/-- What `ChatScreen` allows: `enabled = modelState is Success && !isTyping`. -/
def SendsWhenNotTyping (vm : ChatViewModel) : Event → Prop
  | .sendMessage _ => vm.loader.modelState.isReady = true → vm.isTyping = false
  | _ => True

instance (vm : ChatViewModel) : (event : Event) → Decidable (SendsWhenNotTyping vm event)
  | .sendMessage _ =>
    inferInstanceAs (Decidable (vm.loader.modelState.isReady = true → vm.isTyping = false))
  | .tick _ | .contextMemories _ _ | .onToken _ _ | .generated _ _ | .memorySaved _ _ | .clearChat
  | .load _ => .isTrue trivial

/-- Every reply is the whole of what its own `generate` streamed, and the typing flag is set while
a generation runs. -/
structure Undisturbed (vm : ChatViewModel) : Prop where
  replies : ∀ message ∈ vm.trace.published, ∀ call streamed,
    message.source = .reply call streamed → message.content = streamed
  typing : vm.generations ≠ [] → vm.isTyping = true

/-- The accumulator holds what this generation has streamed. -/
def Accumulates (vm : ChatViewModel) (generation : Generation) : Prop :=
  match generation.phase with
  | .awaitMemories _ _ => vm.currentResponse = []
  | .awaitGenerate _ streamed => vm.currentResponse = streamed
  | .awaitSave _ => True

/-- At most one generation runs. It has the flag and the accumulator to itself. -/
def SoloTyping (vm : ChatViewModel) : Prop :=
  (vm.generations = [] ∧ vm.isTyping = false) ∨
    ∃ generation, vm.generations = [generation] ∧ vm.isTyping = true ∧ Accumulates vm generation

theorem SoloTyping.congr (h : SoloTyping vm) (hgenerations : next.generations = vm.generations)
    (htyping : next.isTyping = vm.isTyping)
    (hresponse : next.currentResponse = vm.currentResponse) : SoloTyping next := by
  unfold SoloTyping Accumulates
  rw [hgenerations, htyping, hresponse]
  exact h

/-- The generation that is found at a place is the only one. -/
theorem SoloTyping.of_getElem? (h : SoloTyping vm) {i : Nat} {generation : Generation}
    (hi : vm.generations[i]? = some generation) :
    i = 0 ∧ vm.generations = [generation] ∧ vm.isTyping = true ∧ Accumulates vm generation := by
  rcases h with ⟨hnone, _⟩ | ⟨g, hgenerations, htyping, hacc⟩
  · rw [hnone] at hi
    cases hi
  · rw [hgenerations] at hi
    obtain ⟨hzero, rfl⟩ := eq_of_getElem?_singleton hi
    exact ⟨hzero, hgenerations, htyping, hacc⟩

theorem SoloTyping.finish (h : SoloTyping vm) {i : Nat} {generation : Generation}
    (hi : vm.generations[i]? = some generation)
    (hgenerations : next.generations = vm.generations.eraseIdx i)
    (htyping : next.isTyping = false) : SoloTyping next := by
  obtain ⟨rfl, hsolo, _⟩ := h.of_getElem? hi
  exact Or.inl ⟨by rw [hgenerations, hsolo]; rfl, htyping⟩

theorem SoloTyping.await (h : SoloTyping vm) {i : Nat} {generation : Generation} {phase : Phase}
    (hi : vm.generations[i]? = some generation)
    (hgenerations : next.generations = vm.generations.set i { generation with phase := phase })
    (htyping : next.isTyping = vm.isTyping)
    (hacc : Accumulates next { generation with phase := phase }) : SoloTyping next := by
  obtain ⟨rfl, hsolo, ht, _⟩ := h.of_getElem? hi
  exact Or.inr ⟨_, by rw [hgenerations, hsolo]; rfl, by rw [htyping, ht], hacc⟩

theorem soloTyping_step (vm : ChatViewModel) (event : Event) (next : ChatViewModel)
    (h : Transition vm event next) (hsend : SendsWhenNotTyping vm event) (hs : SoloTyping vm) :
    SoloTyping next := by
  cases h with
  | accepted userMessage hready =>
    have hidle := hsend hready
    rcases hs with ⟨hnone, _⟩ | ⟨g, _, htyping, _⟩
    · obtain ⟨generation, hgenerations, _, _, _, mood, hphase⟩ :=
        accept_generations vm userMessage
      rw [hnone, List.nil_append] at hgenerations
      refine Or.inr ⟨generation, hgenerations, rfl, ?_⟩
      unfold Accumulates
      rw [hphase]
      rfl
    · rw [hidle] at htyping
      cases htyping
  | promptBuilt i generation mood currentTime hi hphase =>
    obtain ⟨_, _, _, hacc⟩ := hs.of_getElem? hi
    rw [Accumulates, hphase] at hacc
    exact hs.await hi rfl rfl hacc
  | streamed i token generation prompt streamed hi hphase =>
    obtain ⟨_, _, _, hacc⟩ := hs.of_getElem? hi
    rw [Accumulates, hphase] at hacc
    refine hs.await hi rfl rfl ?_
    show vm.currentResponse ++ token = streamed ++ token
    rw [hacc]
  | replied i generation prompt streamed hi hphase himportance => exact hs.finish hi rfl rfl
  | repliedImportant i generation prompt streamed hi hphase himportance =>
    exact hs.await hi rfl rfl trivial
  | saved i generation memory hi hphase => exact hs.finish hi rfl rfl
  | failed i event generation hi hresumes => exact hs.finish hi rfl rfl
  | died i event generation hi hresumes => exact hs.finish hi rfl rfl
  | loaded event loader effect hstep => cases effect <;> exact hs.congr rfl rfl rfl
  | _ => exact hs.congr rfl rfl rfl

/-- A step publishes nothing or one message. A reply takes the accumulator as its content. -/
theorem published_cases (h : Transition vm event next) :
    next.trace.published = vm.trace.published ∨
      ∃ message, next.trace.published = vm.trace.published ++ [message] ∧
        ∀ call streamed, message.source = .reply call streamed →
          message.content = vm.currentResponse ∧
            ∃ (i : Nat) (generation : Generation) (prompt : Text),
              vm.generations[i]? = some generation ∧
                generation.phase = .awaitGenerate prompt streamed := by
  cases h with
  | refused userMessage hready => exact Or.inr ⟨_, rfl, by rintro _ _ ⟨⟩⟩
  | accepted userMessage hready => exact Or.inr ⟨_, rfl, by rintro _ _ ⟨⟩⟩
  | replied i generation prompt streamed hi hphase himportance =>
    exact Or.inr ⟨_, rfl, by rintro _ _ ⟨⟩; exact ⟨rfl, i, generation, prompt, hi, hphase⟩⟩
  | repliedImportant i generation prompt streamed hi hphase himportance =>
    exact Or.inr ⟨_, rfl, by rintro _ _ ⟨⟩; exact ⟨rfl, i, generation, prompt, hi, hphase⟩⟩
  | failed i event generation hi hresumes => exact Or.inr ⟨_, rfl, by rintro _ _ ⟨⟩⟩
  | cleared => exact Or.inr ⟨_, rfl, by rintro _ _ ⟨⟩⟩
  | loaded event loader effect hstep =>
    cases effect with
    | ready load => exact Or.inr ⟨_, rfl, by rintro _ _ ⟨⟩⟩
    | _ => exact Or.inl rfl
  | _ => exact Or.inl rfl

/-- The replies published so far are what their own generations streamed. -/
def RepliesWhole (vm : ChatViewModel) : Prop :=
  ∀ message ∈ vm.trace.published, ∀ call streamed,
    message.source = .reply call streamed → message.content = streamed

theorem repliesWhole_step (vm : ChatViewModel) (event : Event) (next : ChatViewModel)
    (h : Transition vm event next) (hs : SoloTyping vm) (hr : RepliesWhole vm) :
    RepliesWhole next := by
  rcases published_cases h with hsame | ⟨message, hnew, hreply⟩
  · unfold RepliesWhole
    rw [hsame]
    exact hr
  · intro m hm call streamed hsource
    rw [hnew] at hm
    rcases List.mem_append.mp hm with hm | hm
    · exact hr m hm call streamed hsource
    · rw [List.mem_singleton] at hm
      subst hm
      obtain ⟨hcontent, i, generation, prompt, hi, hphase⟩ := hreply call streamed hsource
      obtain ⟨_, _, _, hacc⟩ := hs.of_getElem? hi
      rw [Accumulates, hphase] at hacc
      rw [hcontent]
      exact hacc

/-- **When messages are sent only while no answer is being typed, generations do not disturb each
other.** -/
theorem undisturbed_of_run {now : Int} {database : MemoryTable} {isNativeLoaded : Bool}
    {native : NativeLayer} {storage : Storage}
    (hrun : machine.run (init now database isNativeLoaded native storage) es = some vm)
    (hsend : machine.Along SendsWhenNotTyping (init now database isNativeLoaded native storage)
      es) :
    Undisturbed vm := by
  have hinv : SoloTyping vm ∧ RepliesWhole vm :=
    invariant_of_run_along (I := fun vm => SoloTyping vm ∧ RepliesWhole vm)
      (fun vm event next h hg hi => ⟨soloTyping_step vm event next h hg hi.1,
        repliesWhole_step vm event next h hi.1 hi.2⟩)
      hsend ⟨Or.inl ⟨rfl, rfl⟩, by simp [RepliesWhole, init]⟩ hrun
  obtain ⟨hsolo, hreplies⟩ := hinv
  refine ⟨hreplies, fun hsome => ?_⟩
  rcases hsolo with ⟨hnone, _⟩ | ⟨g, _, htyping, _⟩
  · exact absurd hnone hsome
  · exact htyping

theorem undisturbed_exchanges :
    ∃ vm, machine.run phone (boot ++ exchange (utf16 "hi") (utf16 "yo") ++
        [.sendMessage (utf16 "so")]) = some vm ∧ Undisturbed vm := by
  have hsome : (machine.run phone (boot ++ exchange (utf16 "hi") (utf16 "yo") ++
      [.sendMessage (utf16 "so")])).isSome = true := by decide +kernel
  obtain ⟨vm, hrun⟩ := exists_run_of_isSome hsome
  have hsend : machine.Along SendsWhenNotTyping phone (boot ++
      exchange (utf16 "hi") (utf16 "yo") ++ [.sendMessage (utf16 "so")]) := by decide +kernel
  exact ⟨vm, hrun, undisturbed_of_run hrun hsend⟩

/-- Two messages sent in a row. The tokens of both go into one reply, and the flag is cleared while
the second generation still runs. -/
def overlap : List Event :=
  boot ++
    [.sendMessage (utf16 "a"), .sendMessage (utf16 "b"), .contextMemories 0 (.ok ()),
      .contextMemories 1 (.ok ()), .onToken 0 (utf16 "x"), .onToken 1 (utf16 "y"),
      .generated 0 (.ok ())]

theorem overlap_disturbed :
    ∃ vm, machine.run phone overlap = some vm ∧
      vm.messages.getLast? = some ⟨utf16 "xy", false, 0, .reply 0 (utf16 "x")⟩ ∧
      vm.generations.length = 1 ∧ vm.isTyping = false ∧ ¬ Undisturbed vm := by
  have hview : (machine.run phone overlap).map (fun vm =>
      (vm.messages.getLast?, vm.generations.length, vm.isTyping)) =
      some (some ⟨utf16 "xy", false, 0, .reply 0 (utf16 "x")⟩, 1, false) := by decide +kernel
  obtain ⟨vm, hrun, hvm⟩ := Option.map_eq_some_iff.mp hview
  simp only [Prod.mk.injEq] at hvm
  obtain ⟨hlast, hone, htyping⟩ := hvm
  refine ⟨vm, hrun, hlast, hone, htyping, fun h => ?_⟩
  have hset := h.typing (fun hnone => by rw [hnone] at hone; cases hone)
  rw [htyping] at hset
  cases hset

end ChatViewModel

end Kaede
