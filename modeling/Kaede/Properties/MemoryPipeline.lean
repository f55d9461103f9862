import Kaede.Properties.Forgetting

/-!
# From a message to a memory to a prompt

* `savedOf` — what a sequence of messages leaves in an empty table
* `remembered_step` — each step keeps the table in line with the messages that have been handled
* `memoryPipeline_of_run` — the table and the memories section of every prompt
-/

namespace Kaede

open Infra PromptBuilder

/-! ## Importance -/

theorem calculateImportance_le (message : Text) : calculateImportance message ≤ 10 :=
  min_le_right _ _

/-- The message scores high enough to be saved. -/
def Important (message : Text) : Prop := 5 ≤ calculateImportance message

instance (message : Text) : Decidable (Important message) :=
  inferInstanceAs (Decidable (5 ≤ calculateImportance message))

/-- What the rows say that these messages leave behind, with their scores. -/
def savedOf (messages : List Text) : List (Text × Int) :=
  (messages.filter (Important ·)).map fun message =>
    (utf16 "User said: " ++ message, calculateImportance message)

theorem savedOf_concat_of_important {message : Text} (h : Important message)
    (messages : List Text) :
    savedOf (messages ++ [message]) =
      savedOf messages ++ [(utf16 "User said: " ++ message, calculateImportance message)] := by
  rw [savedOf, List.filter_append, List.map_append, List.filter_singleton]
  simp [savedOf, h]

theorem savedOf_concat_of_not_important {message : Text} (h : ¬ Important message)
    (messages : List Text) : savedOf (messages ++ [message]) = savedOf messages := by
  rw [savedOf, List.filter_append, List.filter_singleton]
  simp [savedOf, h]

theorem importance_of_mem_savedOf {messages : List Text} {saved : Text × Int}
    (h : saved ∈ savedOf messages) : 5 ≤ saved.2 ∧ saved.2 ≤ 10 := by
  obtain ⟨message, hmessage, rfl⟩ := List.mem_map.mp h
  exact ⟨of_decide_eq_true (List.mem_filter.mp hmessage).2, calculateImportance_le message⟩

/-! ## The table -/

/-- What the rows say, with their scores. -/
def MemoryTable.contents (table : MemoryTable) : List (Text × Int) :=
  table.rows.map fun row => (row.content, row.importanceScore)

theorem contents_saveMemory {memory : MemoryEntity} (hid : memory.id = 0) (table : MemoryTable) :
    (MemoryRepository.saveMemory memory table).contents =
      table.contents ++ [(memory.content, memory.importanceScore)] := by
  rw [MemoryRepository.saveMemory, MemoryDao.insertMemory, if_pos hid, MemoryTable.contents,
    List.map_append]
  rfl

/-! ## The rank of a memory -/

/-- Three fifths of the importance and two fifths of the timestamp in days. -/
def MemoryEntity.rank (memory : MemoryEntity) : Rat :=
  6 / 10 * memory.importanceScore + 4 / 10 * (memory.timestamp / (24 * 60 * 60 * 1000))

/-- The query ranks by the age instead of the timestamp. This lowers all scores alike. -/
theorem exactScore_le_iff {currentTime : Int} {memory memory' : MemoryEntity} :
    MemoryDao.exactScore.ofRow currentTime memory ≤
        MemoryDao.exactScore.ofRow currentTime memory' ↔
      memory.rank ≤ memory'.rank := by
  unfold MemoryDao.ContextScore.ofRow MemoryDao.exactScore MemoryEntity.rank
  push_cast
  constructor <;> intro h <;> linarith

/-- The context of a prompt is the top of a ranking of the whole table. -/
theorem exists_ranking (currentTime : Int) {limit : Int} (hlimit : 0 ≤ limit)
    (table : MemoryTable) :
    ∃ ranking : List MemoryEntity, ranking.Perm table.rows ∧
      ranking.Pairwise (fun higher lower => lower.rank ≤ higher.rank) ∧
      MemoryRepository.getContextMemories currentTime limit table = ranking.take limit.toNat := by
  have hsorted : (rankDesc (MemoryDao.exactScore.ofRow currentTime) table.rows).Pairwise
      fun x y =>
        MemoryDao.exactScore.ofRow currentTime y ≤ MemoryDao.exactScore.ofRow currentTime x :=
    rankDesc_pairwise table.rows
  exact ⟨_, rankDesc_perm table.rows, hsorted.imp fun h => exactScore_le_iff.mp h,
    if_neg (Int.not_lt.mpr hlimit)⟩

/-- The section is there exactly if a memory is, and its own limit cuts nothing off. -/
theorem memoryLines_of_ranking {table : MemoryTable} {ranking : List MemoryEntity}
    (hperm : ranking.Perm table.rows) :
    memoryLines (ranking.take 5) =
      if table.rows = [] then []
      else utf16 "=== IMPORTANT MEMORIES ===" :: (ranking.take 5).map memoryLine ++ [[]] := by
  unfold memoryLines
  rw [List.take_take, min_self]
  by_cases hnone : table.rows = []
  · rw [hnone, List.perm_nil] at hperm
    rw [if_pos hnone, hperm]
    rfl
  · have hsome : ranking.take 5 ≠ [] := by
      intro hnil
      rcases List.take_eq_nil_iff.mp hnil with hzero | hranking
      · cases hzero
      · rw [hranking] at hperm
        exact hnone (List.nil_perm.mp hperm)
    rw [if_neg hnone, if_neg (by rwa [List.isEmpty_iff])]

namespace ChatViewModel

variable {vm next : ChatViewModel} {event : Event} {es : List Event}

/-! ## Messages and rows -/

/-- No call fails. -/
def Succeeds : Event → Prop
  | .contextMemories _ outcome | .generated _ outcome | .memorySaved _ outcome => outcome = .ok ()
  | _ => True

instance : DecidablePred Succeeds
  | .contextMemories _ outcome | .generated _ outcome | .memorySaved _ outcome =>
    match outcome with
    | .ok () => .isTrue rfl
    | .error _ => .isFalse nofun
  | .tick _ | .sendMessage _ | .onToken _ _ | .clearChat | .load _ => .isTrue trivial

/-- The messages that are answered, and saved if they are important. -/
def handled (vm : ChatViewModel) : List Text :=
  vm.trace.sent.take (vm.trace.calls - vm.generations.length)

/-- A generation saves its own message. -/
def SavesOwn (generation : Generation) : Prop :=
  ∀ memory, generation.phase = .awaitSave memory →
    Important generation.userMessage ∧ memory.id = 0 ∧
      memory.content = utf16 "User said: " ++ generation.userMessage ∧
      memory.importanceScore = calculateImportance generation.userMessage

/-- The table holds what the handled messages leave behind. The message of the running generation
is not among them. -/
inductive Remembered (vm : ChatViewModel) : Prop where
  | idle (hnone : vm.generations = []) (hrows : vm.database.contents = savedOf vm.trace.sent)
  | busy (generation : Generation) (earlier : List Text) (hone : vm.generations = [generation])
    (hsent : vm.trace.sent = earlier ++ [generation.userMessage])
    (hrows : vm.database.contents = savedOf earlier) (hsaves : SavesOwn generation)

namespace Remembered

/-- Only the generations, the messages sent and the table matter. -/
theorem congr (h : Remembered vm) (hgenerations : next.generations = vm.generations)
    (hsent : next.trace.sent = vm.trace.sent) (hdatabase : next.database = vm.database) :
    Remembered next := by
  cases h with
  | idle hnone hrows =>
    exact .idle (hgenerations.trans hnone) (by rw [hdatabase, hsent, hrows])
  | busy generation earlier hone hsent' hrows hsaves =>
    exact .busy generation earlier (hgenerations.trans hone) (hsent.trans hsent')
      (by rw [hdatabase, hrows]) hsaves

/-- A generation that runs is the only one. -/
theorem of_getElem? (h : Remembered vm) {i : Nat} {generation : Generation}
    (hi : vm.generations[i]? = some generation) :
    i = 0 ∧ vm.generations = [generation] ∧ SavesOwn generation ∧
      ∃ earlier, vm.trace.sent = earlier ++ [generation.userMessage] ∧
        vm.database.contents = savedOf earlier := by
  cases h with
  | idle hnone hrows =>
    rw [hnone] at hi
    cases hi
  | busy only earlier hone hsent hrows hsaves =>
    rw [hone] at hi
    obtain ⟨hzero, rfl⟩ := eq_of_getElem?_singleton hi
    exact ⟨hzero, hone, hsaves, earlier, hsent, hrows⟩

/-- The generation waits somewhere else. -/
theorem await (h : Remembered vm) {i : Nat} {generation : Generation} {phase : Phase}
    (hi : vm.generations[i]? = some generation)
    (hsaves : SavesOwn { generation with phase := phase }) :
    Remembered (vm.await i generation phase) := by
  obtain ⟨hzero, hone, -, earlier, hsent, hrows⟩ := h.of_getElem? hi
  refine .busy { generation with phase := phase } earlier ?_ hsent hrows hsaves
  show vm.generations.set i _ = _
  rw [hzero, hone]
  rfl

/-- The generation finishes when its message is handled. -/
theorem finish (h : Remembered vm) {i : Nat} {generation : Generation}
    (hi : vm.generations[i]? = some generation) {database : MemoryTable}
    (hrows : ∀ earlier, vm.database.contents = savedOf earlier →
      database.contents = savedOf (earlier ++ [generation.userMessage])) :
    Remembered ({ vm with database := database }.finish i) := by
  obtain ⟨hzero, hone, -, earlier, hsent, hearlier⟩ := h.of_getElem? hi
  refine .idle ?_ ?_
  · show vm.generations.eraseIdx i = []
    rw [hzero, hone]
    rfl
  · show database.contents = savedOf vm.trace.sent
    rw [hsent, hrows earlier hearlier]

theorem contents_eq (h : Remembered vm) : vm.database.contents = savedOf vm.handled := by
  cases h with
  | idle hnone hrows => rw [hrows, handled, hnone, Trace.calls, List.length_nil, Nat.sub_zero,
      List.take_length]
  | busy generation earlier hone hsent hrows hsaves =>
    rw [hrows, handled, hone, Trace.calls, hsent]
    simp

end Remembered

/-- The memory of an important message has its score. -/
theorem savesOwn_memoryOf {generation : Generation}
    (himportance : 5 ≤ calculateImportance generation.userMessage) :
    SavesOwn { generation with phase := .awaitSave (vm.memoryOf generation) } := by
  rintro memory ⟨⟩
  refine ⟨himportance, rfl, rfl, ?_⟩
  show max 0 (min (calculateImportance generation.userMessage) 10) =
    calculateImportance generation.userMessage
  have hle := calculateImportance_le generation.userMessage
  omega

/-- **Each step keeps the table in line with the messages that have been handled.** -/
theorem remembered_step (vm : ChatViewModel) (event : Event) (next : ChatViewModel)
    (h : Transition vm event next) (hg : OneAtATime vm event ∧ Succeeds event)
    (hr : Remembered vm) : Remembered next := by
  cases h with
  | accepted userMessage hready =>
    have hnone := hg.1 hready
    cases hr with
    | idle _ hrows =>
      obtain ⟨generation, hgenerations, huser, -, -, mood, hphase⟩ :=
        accept_generations vm userMessage
      rw [hnone, List.nil_append] at hgenerations
      refine .busy generation vm.trace.sent hgenerations ?_ hrows ?_
      · rw [huser]
        rfl
      · intro memory hsave
        rw [hphase] at hsave
        cases hsave
    | busy generation earlier hone =>
      rw [hone] at hnone
      cases hnone
  | promptBuilt i generation mood currentTime hi hphase =>
    exact hr.await hi (by rintro memory ⟨⟩)
  | streamed i token generation prompt streamed hi hphase =>
    have hresponse : Remembered { vm with currentResponse := vm.currentResponse ++ token } :=
      hr.congr rfl rfl rfl
    exact hresponse.await hi (by rintro memory ⟨⟩)
  | replied i generation prompt streamed hi hphase himportance =>
    have hreply : Remembered (vm.addReply generation streamed) := hr.congr rfl rfl rfl
    refine hreply.finish hi fun earlier hrows => ?_
    rw [savedOf_concat_of_not_important (by rw [Important]; omega)]
    exact hrows
  | repliedImportant i generation prompt streamed hi hphase himportance =>
    have hreply : Remembered { vm.addReply generation streamed with
        personalityManager := (vm.personalityManager.getCurrentMood vm.now).2 } :=
      hr.congr rfl rfl rfl
    exact hreply.await hi (savesOwn_memoryOf himportance)
  | saved i generation memory hi hphase =>
    obtain ⟨-, -, hsaves, -⟩ := hr.of_getElem? hi
    obtain ⟨himportant, hid, hcontent, hscore⟩ := hsaves memory hphase
    refine hr.finish hi fun earlier hrows => ?_
    rw [contents_saveMemory hid, hrows, hcontent, hscore, savedOf_concat_of_important himportant]
  | failed i event generation hi hresumes =>
    generalize generation.phase = phase at hresumes
    cases hresumes <;> cases hg.2
  | died i event generation hi hresumes =>
    generalize generation.phase = phase at hresumes
    cases hresumes <;> cases hg.2
  | loaded event loader effect hstep => cases effect <;> exact hr.congr rfl rfl rfl
  | _ => exact hr.congr rfl rfl rfl

/-! ## The pipeline -/

theorem prompt_of_promptOf {prompt : Text} (h : vm.promptOf event = some prompt) :
    ∃ (i : Nat) (generation : Generation) (mood : Mood) (currentTime : Int),
      vm.generations[i]? = some generation ∧
      prompt = vm.prompt generation mood currentTime := by
  unfold promptOf at h
  split at h
  · next i =>
    obtain ⟨generation, hi, h⟩ := Option.bind_eq_some_iff.mp h
    split at h
    · next mood currentTime _ =>
      exact ⟨i, generation, mood, currentTime, hi, (Option.some.inj h).symm⟩
    · cases h
  · cases h

/--
**The table and the prompts of a run that handles one message at a time.**

The table holds one row for each important message that has been handled, in order, with its score.
A prompt shows the five rows that rank highest, or all if there are fewer, and no section if there
are none. The message that it is for has not been handled yet.
-/
theorem memoryPipeline_of_run {now lastId : Int} {isNativeLoaded : Bool} {native : NativeLayer}
    {storage : Storage}
    (hrun : machine.run (init now ⟨[], lastId⟩ isNativeLoaded native storage) es = some vm)
    (hone : machine.Along OneAtATime (init now ⟨[], lastId⟩ isNativeLoaded native storage) es)
    (hsucceeds : ∀ event ∈ es, Succeeds event) :
    vm.database.contents = savedOf vm.handled ∧
      (∀ row ∈ vm.database.rows, 5 ≤ row.importanceScore ∧ row.importanceScore ≤ 10) ∧
      ∀ event prompt, vm.promptOf event = some prompt →
        ∃ (ranking : List MemoryEntity) (mood : Mood) (userMessage : Text),
          ranking.Perm vm.database.rows ∧
            ranking.Pairwise (fun higher lower => lower.rank ≤ higher.rank) ∧
            vm.trace.sent = vm.handled ++ [userMessage] ∧
            prompt = unlines newline (headLines mood ++
              (if vm.database.rows = [] then []
                else utf16 "=== IMPORTANT MEMORIES ===" :: (ranking.take 5).map memoryLine ++ [[]]) ++
              [utf16 "=== CONVERSATION ==="] ++
              historyLines vm.memoryManager.getConversationHistory ++ tailLines userMessage) ++
                utf16 "Kaede: " := by
  have hremembered : Remembered vm :=
    invariant_of_run_along remembered_step
      (Machine.along_and hone ((Machine.along_const_iff hrun).mpr hsucceeds)) (.idle rfl rfl) hrun
  have hcontents := hremembered.contents_eq
  refine ⟨hcontents, fun row hrow => ?_, fun event prompt hprompt => ?_⟩
  · have hsaved : (row.content, row.importanceScore) ∈ savedOf vm.handled := by
      rw [← hcontents]
      exact List.mem_map_of_mem hrow
    exact importance_of_mem_savedOf hsaved
  · obtain ⟨i, generation, mood, currentTime, hi, rfl⟩ := prompt_of_promptOf hprompt
    obtain ⟨-, hgenerations, -, earlier, hsent, -⟩ := hremembered.of_getElem? hi
    obtain ⟨ranking, hperm, hsorted, htop⟩ :=
      exists_ranking currentTime (show (0 : Int) ≤ 5 by decide) vm.database
    refine ⟨ranking, mood, generation.userMessage, hperm, hsorted, ?_, ?_⟩
    · rw [handled, Trace.calls, hgenerations, hsent]
      simp
    · have hscore : vm.contextScore = MemoryDao.exactScore := contextScore_of_run hrun
      have htop' : MemoryRepository.getContextMemoriesBy vm.contextScore currentTime 5 vm.database =
          ranking.take 5 := by
        rw [hscore]
        exact htop
      rw [ChatViewModel.prompt, buildPrompt_eq, promptLines, htop', memoryLines_of_ranking hperm]

/-- After an important message and a second one, the first is the only row. -/
theorem memoryPipeline_of_run_confession :
    ∃ vm, machine.run phone (confession ++ [.sendMessage (utf16 "ok")]) = some vm ∧
      vm.database.contents = [(utf16 "User said: I love you", 5)] ∧
      vm.database.contents = savedOf vm.handled := by
  have hview : (machine.run phone (confession ++ [.sendMessage (utf16 "ok")])).map
      (·.database.contents) = some [(utf16 "User said: I love you", 5)] := by decide +kernel
  obtain ⟨vm, hrun, hrows⟩ := Option.map_eq_some_iff.mp hview
  have hone : machine.Along OneAtATime phone (confession ++ [.sendMessage (utf16 "ok")]) := by
    decide +kernel
  exact ⟨vm, hrun, hrows, (memoryPipeline_of_run hrun hone (by decide +kernel)).1⟩

end ChatViewModel

end Kaede
