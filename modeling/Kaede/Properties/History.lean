import Kaede.Properties.Numbered

/-!
# What the buffer and the history hold

The buffer holds the last ten turns since it was cleared, each under a text that already names its
speaker. All of them are stored as the user's.

* `speakersCorrect_iff` — the history names the speakers right exactly when it is empty
* `windowPrecedes_iff` — the history that a prompt gets ends with the turn before the message only
  if there is none and the chat was cleared while the memories were being fetched
-/

namespace Kaede

open Infra PromptBuilder

/-! ## The buffer -/

/-- A turn with the label of its speaker. -/
def Utterance.label : Utterance → Text
  | ⟨.user, text, _⟩ => utf16 "User: " ++ text
  | ⟨.kaede, text, _⟩ => utf16 "Kaede: " ++ text

namespace ChatViewModel

variable {vm next s : ChatViewModel} {event : Event} {es : List Event}

/-- Every step leaves the buffer alone, adds one labelled turn to it, or clears it. -/
theorem buffer_cases (h : Transition vm event next) :
    (next.memoryManager = vm.memoryManager ∧ next.trace.sinceClear = vm.trace.sinceClear) ∨
      (∃ utterance,
        next.memoryManager = vm.memoryManager.addToBuffer vm.now utterance utterance.label ∧
          next.trace.sinceClear = vm.trace.sinceClear ++ [utterance]) ∨
      (next.memoryManager = vm.memoryManager.clearBuffer vm.now ∧ next.trace.sinceClear = []) := by
  cases h with
  | accepted userMessage hready =>
    exact Or.inr (Or.inl ⟨⟨.user, userMessage, vm.trace.calls⟩, rfl, rfl⟩)
  | replied i generation prompt streamed hi hphase himportance =>
    exact Or.inr (Or.inl ⟨⟨.kaede, vm.currentResponse, generation.call⟩, rfl, rfl⟩)
  | repliedImportant i generation prompt streamed hi hphase himportance =>
    exact Or.inr (Or.inl ⟨⟨.kaede, vm.currentResponse, generation.call⟩, rfl, rfl⟩)
  | cleared => exact Or.inr (Or.inr ⟨rfl, rfl⟩)
  | loaded event loader effect hstep => cases effect <;> exact Or.inl ⟨rfl, rfl⟩
  | _ => exact Or.inl ⟨rfl, rfl⟩

/-- The buffer is the last ten of the turns since the last clear. Each turn has its label as its
content, and counts as the user's. -/
def BufferHolds (vm : ChatViewModel) : Prop :=
  ∃ turns : List (ConversationTurn Utterance),
    vm.memoryManager.conversationBuffer = turns.rtake MemoryManager.maxBufferSize ∧
      turns.map (·.tag) = vm.trace.sinceClear ∧
      ∀ turn ∈ turns, turn.content = turn.tag.label ∧ turn.isUser = true

theorem bufferHolds_of_nil (hbuffer : vm.memoryManager.conversationBuffer = [])
    (hclear : vm.trace.sinceClear = []) : BufferHolds vm :=
  ⟨[], hbuffer, hclear.symm, by simp⟩

theorem bufferHolds_step (vm : ChatViewModel) (event : Event) (next : ChatViewModel)
    (h : Transition vm event next) (hb : BufferHolds vm) : BufferHolds next := by
  obtain ⟨turns, hbuffer, htags, hturns⟩ := hb
  rcases buffer_cases h with ⟨hmm, hclear⟩ | ⟨utterance, hmm, hclear⟩ | ⟨hmm, hclear⟩
  · exact ⟨turns, by rw [hmm, hbuffer], by rw [hclear, htags], hturns⟩
  · refine ⟨turns ++ [⟨utterance.label, true, .normal, vm.now, utterance⟩], ?_, ?_, ?_⟩
    · rw [hmm, MemoryManager.addToBuffer_window hbuffer]
    · rw [List.map_append, htags, hclear]
      rfl
    · intro turn hturn
      rcases List.mem_append.mp hturn with hturn | hturn
      · exact hturns turn hturn
      · rw [List.mem_singleton] at hturn
        rw [hturn]
        exact ⟨rfl, rfl⟩
  · exact bufferHolds_of_nil (by rw [hmm]; rfl) hclear

theorem bufferHolds_of_run (hs : BufferHolds s) (hrun : machine.run s es = some vm) :
    BufferHolds vm :=
  invariant_of_run bufferHolds_step hs hrun

theorem BufferHolds.tags (h : BufferHolds vm) :
    vm.memoryManager.conversationBuffer.map (·.tag) =
      vm.trace.sinceClear.rtake MemoryManager.maxBufferSize := by
  obtain ⟨turns, hbuffer, htags, _⟩ := h
  rw [hbuffer, map_rtake, htags]

/-- The history gives every turn a second label, and always the user's. -/
theorem BufferHolds.history (h : BufferHolds vm) :
    vm.memoryManager.getConversationHistory =
      (vm.trace.sinceClear.rtake MemoryManager.maxBufferSize).map
        fun utterance => utf16 "User: " ++ utterance.label := by
  obtain ⟨turns, hbuffer, htags, hturns⟩ := h
  rw [MemoryManager.getConversationHistory, hbuffer, ← htags, ← map_rtake, List.map_map]
  refine List.map_congr_left fun turn hturn => ?_
  obtain ⟨hcontent, huser⟩ := hturns turn (mem_of_mem_rtake hturn)
  rw [MemoryManager.historyLine, if_pos huser, hcontent]
  rfl

/-! ## Speakers -/

/-- The latest text of a speaker. -/
def latest (speaker : Speaker) (utterances : List Utterance) : Option Text :=
  ((utterances.filter (·.speaker = speaker)).getLast?).map (·.text)

/-- The history shows the last turns, each under its speaker, and the two getters find the latest
texts. -/
structure SpeakersCorrect (vm : ChatViewModel) : Prop where
  history : vm.memoryManager.getConversationHistory =
    (vm.trace.sinceClear.rtake MemoryManager.maxBufferSize).map Utterance.label
  lastUser : vm.memoryManager.getLastUserMessage = latest .user vm.trace.sinceClear
  lastKaede : vm.memoryManager.getLastKaedeResponse = latest .kaede vm.trace.sinceClear

/-- **The history names the speakers right exactly as long as there is nothing in it.** -/
theorem speakersCorrect_iff (hbuffer : s.memoryManager.conversationBuffer = [])
    (hclear : s.trace.sinceClear = []) (hrun : machine.run s es = some vm) :
    SpeakersCorrect vm ↔ vm.trace.sinceClear = [] := by
  have hb := bufferHolds_of_run (bufferHolds_of_nil hbuffer hclear) hrun
  constructor
  · intro h
    have heq := h.history
    rw [hb.history] at heq
    cases hlast : vm.trace.sinceClear.rtake MemoryManager.maxBufferSize with
    | nil => exact (rtake_eq_nil_iff (by decide)).mp hlast
    | cons utterance rest =>
      rw [hlast, List.map_cons, List.map_cons, List.cons.injEq] at heq
      -- the second label makes the line longer
      have hlen := congrArg List.length heq.1
      rw [List.length_append] at hlen
      have hpos : 0 < (utf16 "User: ").length := by decide
      omega
  · intro h
    have hnil : vm.memoryManager.conversationBuffer = [] := by
      have htags := hb.tags
      rw [h] at htags
      exact List.map_eq_nil_iff.mp htags
    refine ⟨?_, ?_, ?_⟩
    · rw [MemoryManager.getConversationHistory, hnil, h]
      rfl
    · rw [MemoryManager.getLastUserMessage, hnil, h]
      rfl
    · rw [MemoryManager.getLastKaedeResponse, hnil, h]
      rfl

theorem speakersCorrect_iff_exchange :
    ∃ vm, machine.run phone (boot ++ exchange (utf16 "hi") (utf16 "yo")) = some vm ∧
      (SpeakersCorrect vm ↔ vm.trace.sinceClear = []) := by
  have hsome : (machine.run phone (boot ++ exchange (utf16 "hi") (utf16 "yo"))).isSome = true := by
    decide +kernel
  obtain ⟨vm, hrun⟩ := exists_run_of_isSome hsome
  exact ⟨vm, hrun, speakersCorrect_iff rfl rfl hrun⟩

/-- After one exchange both turns are the user's, under two labels each. -/
theorem speakers_mixed :
    ∃ vm, machine.run phone (boot ++ exchange (utf16 "hi") (utf16 "yo")) = some vm ∧
      vm.memoryManager.getConversationHistory =
        [utf16 "User: User: hi", utf16 "User: Kaede: yo"] ∧
      vm.memoryManager.getLastUserMessage = some (utf16 "Kaede: yo") ∧
      vm.memoryManager.getLastKaedeResponse = none ∧ ¬ SpeakersCorrect vm := by
  have hview : (machine.run phone (boot ++ exchange (utf16 "hi") (utf16 "yo"))).map (fun vm =>
      (vm.memoryManager.getConversationHistory, vm.memoryManager.getLastUserMessage,
        vm.memoryManager.getLastKaedeResponse, vm.trace.sinceClear)) =
      some ([utf16 "User: User: hi", utf16 "User: Kaede: yo"], some (utf16 "Kaede: yo"), none,
        [⟨.user, utf16 "hi", 0⟩, ⟨.kaede, utf16 "yo", 0⟩]) := by
    decide +kernel
  obtain ⟨vm, hrun, hvm⟩ := Option.map_eq_some_iff.mp hview
  simp only [Prod.mk.injEq] at hvm
  obtain ⟨hhistory, huser, hkaede, hclear⟩ := hvm
  refine ⟨vm, hrun, hhistory, huser, hkaede, fun h => ?_⟩
  have hlast := h.lastKaede
  rw [hkaede, hclear] at hlast
  cases hlast

/-! ## The window of a prompt -/

/-- The history that `buildPrompt` gets for this generation in this state consists of the last ten
of the earlier turns, and the prompt says so when there are none. -/
structure WindowPrecedes (vm : ChatViewModel) (generation : Generation) : Prop where
  window : vm.memoryManager.conversationBuffer.map (·.tag) =
    generation.earlier.rtake MemoryManager.maxBufferSize
  marker : historyLines vm.memoryManager.getConversationHistory = [startOfConversation] ↔
    generation.earlier = []

/-- While a generation waits for its memories, its message is the last turn, unless the chat was
cleared meanwhile. -/
structure Pending (vm : ChatViewModel) (generation : Generation) : Prop where
  earlier : ∀ utterance ∈ generation.earlier, utterance.call < generation.call
  recorded : ∀ mood currentTime, generation.phase = .awaitMemories mood currentTime →
    vm.trace.sinceClear =
        generation.earlier ++ [⟨.user, generation.userMessage, generation.call⟩] ∨
      vm.trace.sinceClear = []

/-- At most one generation runs, and it is pending in this sense. -/
def OnePending (vm : ChatViewModel) : Prop :=
  vm.generations = [] ∨ ∃ generation, vm.generations = [generation] ∧ Pending vm generation

theorem OnePending.congr (h : OnePending vm) (hgenerations : next.generations = vm.generations)
    (hclear : next.trace.sinceClear = vm.trace.sinceClear ∨ next.trace.sinceClear = []) :
    OnePending next := by
  rcases h with h | ⟨generation, h, hpending⟩
  · exact Or.inl (by rw [hgenerations, h])
  · refine Or.inr ⟨generation, by rw [hgenerations, h], hpending.earlier, ?_⟩
    intro mood currentTime hphase
    rcases hclear with hclear | hclear
    · rw [hclear]
      exact hpending.recorded mood currentTime hphase
    · exact Or.inr hclear

/-- A generation that moves on no longer waits for memories. -/
theorem OnePending.await (h : OnePending vm) {i : Nat} {generation : Generation} {phase : Phase}
    (hi : vm.generations[i]? = some generation)
    (hphase : ∀ mood currentTime, phase ≠ .awaitMemories mood currentTime)
    (hgenerations : next.generations = vm.generations.set i { generation with phase := phase }) :
    OnePending next := by
  rcases h with h | ⟨g, h, hpending⟩
  · rw [h] at hi
    cases hi
  · rw [h] at hi
    obtain ⟨rfl, rfl⟩ := eq_of_getElem?_singleton hi
    refine Or.inr ⟨{ generation with phase := phase }, by rw [hgenerations, h]; rfl,
      hpending.earlier, ?_⟩
    intro mood currentTime hwaits
    exact absurd hwaits (hphase mood currentTime)

/-- When the only generation ends, none is left. -/
theorem OnePending.erase (h : OnePending vm) {i : Nat} {generation : Generation}
    (hi : vm.generations[i]? = some generation)
    (hgenerations : next.generations = vm.generations.eraseIdx i) : OnePending next := by
  rcases h with h | ⟨g, h, _⟩
  · rw [h] at hi
    cases hi
  · rw [h] at hi
    obtain ⟨rfl, rfl⟩ := eq_of_getElem?_singleton hi
    exact Or.inl (by rw [hgenerations, h]; rfl)

theorem onePending_step (vm : ChatViewModel) (event : Event) (next : ChatViewModel)
    (h : Transition vm event next) (hone : OneAtATime vm event) (hn : Numbered vm)
    (hp : OnePending vm) : OnePending next := by
  cases h with
  | accepted userMessage hready =>
    have hnone := hone hready
    obtain ⟨generation, hgenerations, huser, hcall, hearlier, _⟩ :=
      accept_generations vm userMessage
    rw [hnone, List.nil_append] at hgenerations
    refine Or.inr ⟨generation, hgenerations, ?_, fun _ _ _ => Or.inl ?_⟩
    · intro utterance hu
      rw [hearlier] at hu
      rw [hcall]
      exact hn.said utterance (hn.sinceClear hu)
    · rw [huser, hcall, hearlier]
      rfl
  | promptBuilt i generation mood currentTime hi hphase =>
    exact hp.await hi (by rintro _ _ ⟨⟩) rfl
  | streamed i token generation prompt streamed hi hphase =>
    exact hp.await hi (by rintro _ _ ⟨⟩) rfl
  | replied i generation prompt streamed hi hphase himportance => exact hp.erase hi rfl
  | repliedImportant i generation prompt streamed hi hphase himportance =>
    exact hp.await hi (by rintro _ _ ⟨⟩) rfl
  | saved i generation memory hi hphase => exact hp.erase hi rfl
  | failed i event generation hi hresumes => exact hp.erase hi rfl
  | died i event generation hi hresumes => exact hp.erase hi rfl
  | cleared => exact hp.congr rfl (Or.inr rfl)
  | loaded event loader effect hstep => cases effect <;> exact hp.congr rfl (Or.inl rfl)
  | _ => exact hp.congr rfl (Or.inl rfl)

/--
**The window of a prompt ends before its message only in a conversation without earlier turns that
was cleared while the memories were being fetched.**
-/
theorem windowPrecedes_iff {now : Int} {database : MemoryTable} {isNativeLoaded : Bool}
    {native : NativeLayer} {storage : Storage} {i : Nat} {generation : Generation} {mood : Mood}
    {currentTime : Int}
    (hrun : machine.run (init now database isNativeLoaded native storage) es = some vm)
    (hone : machine.Along OneAtATime (init now database isNativeLoaded native storage) es)
    (hi : vm.generations[i]? = some generation)
    (hphase : generation.phase = .awaitMemories mood currentTime) :
    WindowPrecedes vm generation ↔ generation.earlier = [] ∧ vm.trace.sinceClear = [] := by
  have hb : BufferHolds vm := bufferHolds_of_run (bufferHolds_of_nil rfl rfl) hrun
  have hinv : Numbered vm ∧ OnePending vm :=
    invariant_of_run_along (I := fun vm => Numbered vm ∧ OnePending vm)
      (fun vm event next h hg hi => ⟨numbered_step vm event next h hi.1,
        onePending_step vm event next h hg hi.1 hi.2⟩)
      hone ⟨numbered_init, Or.inl rfl⟩ hrun
  obtain ⟨_, hnone | ⟨g, hgenerations, hpending⟩⟩ := hinv
  · rw [hnone] at hi
    cases hi
  · rw [hgenerations] at hi
    obtain ⟨_, rfl⟩ := eq_of_getElem?_singleton hi
    rcases hpending.recorded mood currentTime hphase with hclear | hclear
    · -- the message itself is the last turn of the window
      refine iff_of_false (fun h => ?_) (fun h => ?_)
      · have hwindow := h.window
        rw [hb.tags, hclear] at hwindow
        have hmem : (⟨.user, generation.userMessage, generation.call⟩ : Utterance) ∈
            generation.earlier.rtake MemoryManager.maxBufferSize := by
          rw [← hwindow, MemoryManager.maxBufferSize, List.rtake_concat_succ]
          exact List.mem_append_right _ (List.mem_singleton.mpr rfl)
        exact absurd (hpending.earlier _ (mem_of_mem_rtake hmem)) (lt_irrefl _)
      · rw [h.2] at hclear
        exact List.append_ne_nil_of_right_ne_nil _ (List.cons_ne_nil _ _) hclear.symm
    · have hnil : vm.memoryManager.conversationBuffer = [] := by
        have htags := hb.tags
        rw [hclear] at htags
        exact List.map_eq_nil_iff.mp htags
      constructor
      · intro h
        have hwindow := h.window
        rw [hnil, List.map_nil] at hwindow
        exact ⟨(rtake_eq_nil_iff (by decide)).mp hwindow.symm, hclear⟩
      · rintro ⟨hearlier, _⟩
        refine ⟨by rw [hnil, hearlier]; rfl, iff_of_true ?_ hearlier⟩
        rw [MemoryManager.getConversationHistory, hnil]
        rfl

/-- A first message, while its memories are being fetched. -/
def firstMessage : List Event := boot ++ [.sendMessage (utf16 "hi")]

theorem windowPrecedes_firstMessage :
    ∃ vm generation, machine.run phone firstMessage = some vm ∧
      vm.generations[0]? = some generation ∧
      (WindowPrecedes vm generation ↔ generation.earlier = [] ∧ vm.trace.sinceClear = []) := by
  have hview : (machine.run phone firstMessage).bind (·.generations[0]?) =
      some ⟨utf16 "hi", .awaitMemories .normal 0, 0, []⟩ := by decide +kernel
  obtain ⟨vm, hrun, hi⟩ := Option.bind_eq_some_iff.mp hview
  have hone : machine.Along OneAtATime phone firstMessage := by decide +kernel
  exact ⟨vm, _, hrun, hi, windowPrecedes_iff hrun hone hi rfl⟩

/-- The first message of all is in its own history. -/
theorem window_contains_message :
    ∃ vm generation, machine.run phone firstMessage = some vm ∧
      vm.generations[0]? = some generation ∧ generation.earlier = [] ∧
      vm.memoryManager.getConversationHistory = [utf16 "User: User: hi"] ∧
      ¬ WindowPrecedes vm generation := by
  have hview : (machine.run phone firstMessage).map (fun vm =>
      (vm.generations[0]?, vm.memoryManager.getConversationHistory)) =
      some (some ⟨utf16 "hi", .awaitMemories .normal 0, 0, []⟩, [utf16 "User: User: hi"]) := by
    decide +kernel
  obtain ⟨vm, hrun, hvm⟩ := Option.map_eq_some_iff.mp hview
  rw [Prod.mk.injEq] at hvm
  refine ⟨vm, _, hrun, hvm.1, rfl, hvm.2, fun h => ?_⟩
  have hmarker := h.marker.mpr rfl
  rw [hvm.2] at hmarker
  revert hmarker
  decide +kernel

end ChatViewModel

end Kaede
