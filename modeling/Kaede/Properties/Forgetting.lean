import Kaede.Properties.Numbered
import Mathlib.Data.List.InsertIdx
import Mathlib.Tactic.Linarith

/-!
# What a cleared chat still knows

`clearChat` empties the message list and the conversation buffer. The memories table and the mood
stay as they are, and both reach the prompt.

* `Alike` — two states that build the same prompts from now on
* `prompts_after_clear` — after a clear, prompts do not depend on the messages before it when these
  left the same memories to show and the same mood
-/

namespace Kaede

open Infra PromptBuilder

/-! ## Memories -/

/-- What the ranking and the prompt read of a memory: content, importance and timestamp. -/
def MemoryEntity.remembered (memory : MemoryEntity) : Text × Int × Int :=
  (memory.content, memory.importanceScore, memory.timestamp)

/-- The ranking is read off these three. -/
def rememberedScore (score : MemoryDao.ContextScore) (currentTime : Int) (r : Text × Int × Int) :
    Rat :=
  score currentTime r.2.1 r.2.2

/-- From `since` on, the context query shows the same memories on the two tables. -/
def SameMemories (score : MemoryDao.ContextScore) (since : Int) (table table' : MemoryTable) : Prop :=
  ∀ currentTime, since ≤ currentTime →
    (MemoryRepository.getContextMemoriesBy score currentTime 5 table).map (·.remembered) =
      (MemoryRepository.getContextMemoriesBy score currentTime 5 table').map (·.remembered)

theorem getContextMemoriesBy_eq_take (score : MemoryDao.ContextScore) (currentTime : Int)
    (table : MemoryTable) :
    MemoryRepository.getContextMemoriesBy score currentTime 5 table =
      (rankDesc (score.ofRow currentTime) table.rows).take 5 := rfl

/-- What is shown after a save depends only on what was shown before it. -/
theorem remembered_saveMemory {memory : MemoryEntity} (hid : memory.id = 0)
    (score : MemoryDao.ContextScore) (currentTime : Int) (table : MemoryTable) :
    (MemoryRepository.getContextMemoriesBy score currentTime 5
        (MemoryRepository.saveMemory memory table)).map (·.remembered) =
      (insertDesc (rememberedScore score currentTime) memory.remembered
        ((MemoryRepository.getContextMemoriesBy score currentTime 5 table).map
          (·.remembered))).take 5 := by
  have hrows : (MemoryRepository.saveMemory memory table).rows =
      table.rows ++ [{ memory with id := table.lastId + 1 }] := by
    rw [MemoryRepository.saveMemory, MemoryDao.insertMemory, if_pos hid]
  have hscore : ∀ row : MemoryEntity, rememberedScore score currentTime row.remembered =
      score.ofRow currentTime row := fun _ => rfl
  rw [getContextMemoriesBy_eq_take, getContextMemoriesBy_eq_take, hrows, take_rankDesc_concat,
    List.map_take, map_insertDesc hscore]
  rfl

namespace SameMemories

variable {score : MemoryDao.ContextScore} {since : Int} {table table' : MemoryTable}

theorem saveMemory (h : SameMemories score since table table') {memory : MemoryEntity}
    (hid : memory.id = 0) :
    SameMemories score since (MemoryRepository.saveMemory memory table)
      (MemoryRepository.saveMemory memory table') := by
  intro currentTime hsince
  rw [remembered_saveMemory hid, remembered_saveMemory hid, h currentTime hsince]

theorem contents (h : SameMemories score since table table') {currentTime : Int}
    (hsince : since ≤ currentTime) :
    (MemoryRepository.getContextMemoriesBy score currentTime 5 table).map (·.content) =
      (MemoryRepository.getContextMemoriesBy score currentTime 5 table').map (·.content) := by
  have hfirst := congrArg (List.map Prod.fst) (h currentTime hsince)
  rw [List.map_map, List.map_map] at hfirst
  exact hfirst

end SameMemories

/-! ## The mood -/

/-- The same mood, and it decays at the same time. The normal mood does not decay. -/
structure SameMood (pm pm' : PersonalityManager) : Prop where
  mood : pm.currentMood = pm'.currentMood
  changed : pm.currentMood ≠ .normal → pm.lastMoodChangeTime = pm'.lastMoodChangeTime

theorem SameMood.getCurrentMood {pm pm' : PersonalityManager} (h : SameMood pm pm') (now : Int) :
    (pm.getCurrentMood now).1 = (pm'.getCurrentMood now).1 ∧
      SameMood (pm.getCurrentMood now).2 (pm'.getCurrentMood now).2 := by
  unfold PersonalityManager.getCurrentMood
  by_cases hnormal : pm.currentMood = .normal
  · have hnormal' : pm'.currentMood = .normal := h.mood ▸ hnormal
    rw [if_neg (fun hdecay => hdecay.1 hnormal), if_neg (fun hdecay => hdecay.1 hnormal')]
    exact ⟨h.mood, h⟩
  · rw [h.changed hnormal, h.mood]
    split
    · exact ⟨rfl, rfl, fun hne => absurd rfl hne⟩
    · exact ⟨rfl, h⟩

theorem SameMood.updateMood {pm pm' : PersonalityManager} (h : SameMood pm pm') (now : Int)
    (userMessage : Text) : SameMood (pm.updateMood now userMessage) (pm'.updateMood now userMessage) := by
  unfold PersonalityManager.updateMood
  dsimp only
  rw [h.mood]
  split
  · split
    · exact ⟨rfl, fun _ => rfl⟩
    · exact h
  · exact h

/-! ## States that build the same prompts -/

/-- What a generation does next depends on these only. -/
def Generation.work (generation : Generation) : Text × Phase :=
  (generation.userMessage, generation.phase)

/-- The context is asked for at `since` or later, and a memory is saved under a new id. -/
def Phase.Since (since : Int) : Phase → Prop
  | .awaitMemories _ currentTime => since ≤ currentTime
  | .awaitGenerate _ _ => True
  | .awaitSave memory => memory.id = 0

namespace ChatViewModel

variable {a b vm next s : ChatViewModel} {event : Event} {es : List Event} {since : Int}

/-- The two states agree on everything that can reach a prompt from the time `since` on. -/
structure Alike (since : Int) (a b : ChatViewModel) : Prop where
  since_le : since ≤ a.now
  now : a.now = b.now
  loader : a.loader = b.loader
  crashed : a.crashed = b.crashed
  response : a.currentResponse = b.currentResponse
  history : a.memoryManager.getConversationHistory = b.memoryManager.getConversationHistory
  score : a.contextScore = b.contextScore
  memories : SameMemories a.contextScore since a.database b.database
  mood : SameMood a.personalityManager b.personalityManager
  work : a.generations.map Generation.work = b.generations.map Generation.work
  phases : ∀ generation ∈ a.generations, generation.phase.Since since

theorem Alike.addMessage (h : Alike since a b) (content : Text) (isUser : Bool)
    (source source' : Source) :
    Alike since (a.addMessage content isUser source) (b.addMessage content isUser source') :=
  { h with }

theorem getConversationHistory_addToBuffer (mm : MemoryManager Utterance) (now : Int)
    (utterance : Utterance) (message : Text) :
    (mm.addToBuffer now utterance message).getConversationHistory =
      pushBounded MemoryManager.maxBufferSize (utf16 "User: " ++ message)
        mm.getConversationHistory := by
  rw [MemoryManager.getConversationHistory, MemoryManager.addToBuffer_buffer, map_pushBounded]
  rfl

theorem Alike.addToBuffer (h : Alike since a b) (utterance utterance' : Utterance)
    (message : Text) :
    Alike since (a.addToBuffer utterance message) (b.addToBuffer utterance' message) := by
  refine { h with history := ?_ }
  show (a.memoryManager.addToBuffer a.now utterance message).getConversationHistory =
    (b.memoryManager.addToBuffer b.now utterance' message).getConversationHistory
  rw [getConversationHistory_addToBuffer, getConversationHistory_addToBuffer, h.history]

theorem Alike.await (h : Alike since a b) {i : Nat} {g g' : Generation}
    (huser : g.userMessage = g'.userMessage) (phase : Phase) (hphase : phase.Since since) :
    Alike since (a.await i g phase) (b.await i g' phase) := by
  refine { h with work := ?_, phases := ?_ }
  · show (a.generations.set i { g with phase := phase }).map Generation.work =
      (b.generations.set i { g' with phase := phase }).map Generation.work
    rw [List.map_set, List.map_set, h.work, Generation.work, Generation.work, huser]
  · intro generation hgeneration
    rcases List.mem_or_eq_of_mem_set hgeneration with hold | hnew
    · exact h.phases generation hold
    · rw [hnew]
      exact hphase

theorem Alike.finish (h : Alike since a b) (i : Nat) : Alike since (a.finish i) (b.finish i) := by
  refine { h with response := rfl, work := ?_, phases := ?_ }
  · show (a.generations.eraseIdx i).map Generation.work =
      (b.generations.eraseIdx i).map Generation.work
    rw [← List.eraseIdx_map, ← List.eraseIdx_map, h.work]
  · exact fun generation hgeneration =>
      h.phases generation (List.mem_of_mem_eraseIdx hgeneration)

/-- The two states hold alike generations at the same places. -/
theorem Alike.generations (h : Alike since a b) (i : Nat) :
    (a.generations[i]? = none ∧ b.generations[i]? = none) ∨
      ∃ g g', a.generations[i]? = some g ∧ b.generations[i]? = some g' ∧
        g.userMessage = g'.userMessage ∧ g.phase = g'.phase := by
  have hwork := congrArg (·[i]?) h.work
  simp only [List.getElem?_map] at hwork
  cases ha : a.generations[i]? with
  | none =>
    rw [ha] at hwork
    exact Or.inl ⟨rfl, Option.map_eq_none_iff.mp hwork.symm⟩
  | some g =>
    rw [ha] at hwork
    obtain ⟨g', hb, heq⟩ := Option.map_eq_some_iff.mp hwork.symm
    rw [Generation.work, Generation.work, Prod.mk.injEq] at heq
    exact Or.inr ⟨g, g', rfl, hb, heq.1.symm, heq.2.symm⟩

/-- Alike states build the same prompt. -/
theorem Alike.prompt (h : Alike since a b) {g g' : Generation}
    (huser : g.userMessage = g'.userMessage) (mood : Mood) {currentTime : Int}
    (hsince : since ≤ currentTime) :
    a.prompt g mood currentTime = b.prompt g' mood currentTime := by
  rw [ChatViewModel.prompt, ChatViewModel.prompt, h.history, huser, ← h.score,
    buildPrompt_congr (h.memories.contents hsince)]

theorem Alike.generateResponse (h : Alike since a b) (userMessage : Text) (call call' : Nat)
    (earlier earlier' : List Utterance) :
    Alike since (a.generateResponse userMessage call earlier)
      (b.generateResponse userMessage call' earlier') := by
  obtain ⟨hmood, hrest⟩ := h.mood.getCurrentMood a.now
  rw [h.now] at hmood hrest
  refine { h with response := rfl, mood := ?_, work := ?_, phases := ?_ }
  · show SameMood (a.personalityManager.getCurrentMood a.now).2 _
    rw [h.now]
    exact hrest
  · show (a.generations ++ [_]).map Generation.work = (b.generations ++ [_]).map Generation.work
    rw [List.map_append, List.map_append, h.work]
    simp only [List.map_cons, List.map_nil, Generation.work, h.now, hmood]
  · intro generation hgeneration
    rcases List.mem_append.mp hgeneration with hold | hnew
    · exact h.phases generation hold
    · -- the new generation asks for the context now
      rw [List.mem_singleton.mp hnew]
      exact h.since_le

/-- Giving both states a mood, and any ghost data. -/
theorem Alike.withMood (h : Alike since a b) {pm pm' : PersonalityManager} (hmood : SameMood pm pm')
    (mood mood' : Mood) (trace trace' : Trace) :
    Alike since { a with personalityManager := pm, currentMood := mood, trace := trace }
      { b with personalityManager := pm', currentMood := mood', trace := trace' } :=
  { h with mood := hmood }

theorem Alike.accept (h : Alike since a b) (userMessage : Text) :
    Alike since (a.accept userMessage) (b.accept userMessage) := by
  have hturn := (h.addMessage userMessage true (.user a.trace.calls)
    (.user b.trace.calls)).addToBuffer ⟨.user, userMessage, a.trace.calls⟩
    ⟨.user, userMessage, b.trace.calls⟩ (utf16 "User: " ++ userMessage)
  obtain ⟨_, hmood⟩ := (h.mood.updateMood a.now userMessage).getCurrentMood a.now
  have hmood' : SameMood ((a.personalityManager.updateMood a.now userMessage).getCurrentMood a.now).2
      ((b.personalityManager.updateMood b.now userMessage).getCurrentMood b.now).2 := by
    rw [← h.now]
    exact hmood
  exact (hturn.withMood hmood' _ _ _ _).generateResponse userMessage _ _ _ _

theorem Alike.clear (h : Alike since a b) : Alike since a.clearChat b.clearChat :=
  { h with history := rfl }

theorem Alike.withLoader (h : Alike since a b) (loader : ModelLoader) (effect : LoadEffect) :
    Alike since (a.onLoad loader effect) (b.onLoad loader effect) := by
  have hloader : Alike since { a with loader := loader } { b with loader := loader } :=
    { h with loader := rfl }
  cases effect with
  | silent => exact hloader
  | ready load => exact hloader.addMessage _ _ _ _
  | crash => exact { hloader with crashed := rfl }

theorem Alike.addReply (h : Alike since a b) (g g' : Generation) (streamed : Text) :
    Alike since (a.addReply g streamed) (b.addReply g' streamed) := by
  unfold ChatViewModel.addReply
  rw [h.response]
  exact (h.addMessage _ _ _ _).addToBuffer _ _ _

theorem Alike.saveIfImportant (h : Alike since a b) {i : Nat} {g g' : Generation}
    (huser : g.userMessage = g'.userMessage) :
    Alike since (a.saveIfImportant i g) (b.saveIfImportant i g') := by
  obtain ⟨hname, hrest⟩ := h.mood.getCurrentMood a.now
  have hnow := h.now
  rw [hnow] at hname
  have hmemory : a.memoryOf g = b.memoryOf g' := by
    rw [memoryOf, memoryOf, hnow, huser, hname]
  have hpm : SameMood (a.personalityManager.getCurrentMood a.now).2
      (b.personalityManager.getCurrentMood b.now).2 := by
    rw [← hnow]
    exact hrest
  show Alike since
    (if 5 ≤ calculateImportance g.userMessage then
      { a with personalityManager := (a.personalityManager.getCurrentMood a.now).2 }.await i g
        (.awaitSave (a.memoryOf g))
    else a.finish i)
    (if 5 ≤ calculateImportance g'.userMessage then
      { b with personalityManager := (b.personalityManager.getCurrentMood b.now).2 }.await i g'
        (.awaitSave (b.memoryOf g'))
    else b.finish i)
  rw [huser, hmemory]
  split
  · exact (h.withMood hpm _ _ _ _).await huser (.awaitSave _) rfl
  · exact h.finish i

/-- A call that ends the same way leaves alike states alike. -/
theorem Alike.resume (h : Alike since a b) {a' b' : ChatViewModel} (h' : Alike since a' b') (i : Nat)
    (g g' : Generation) (outcome : Except Throwable Unit) :
    Alike since (a.resume i g outcome a') (b.resume i g' outcome b') := by
  cases outcome with
  | ok u => exact h'
  | error t =>
    cases t with
    | exception => exact (h.addMessage _ _ _ _).finish i
    | error => exact { h.finish i with crashed := rfl }

theorem Alike.send (h : Alike since a b) (userMessage : Text) :
    Alike since (a.sendMessage userMessage) (b.sendMessage userMessage) := by
  have hstate : a.loader.modelState.isReady = b.loader.modelState.isReady := by rw [h.loader]
  cases hready : a.loader.modelState.isReady with
  | true =>
    rw [sendMessage_of_ready userMessage hready,
      sendMessage_of_ready userMessage (hstate ▸ hready)]
    exact h.accept userMessage
  | false =>
    rw [sendMessage_of_not_ready userMessage hready,
      sendMessage_of_not_ready userMessage (hstate ▸ hready)]
    exact h.addMessage _ _ _ _

/-! ## Steps in lockstep -/

/-- The prompt that a step hands to the model. -/
def promptOf (vm : ChatViewModel) : Event → Option Text
  | .contextMemories i (.ok ()) =>
    vm.generations[i]?.bind fun generation =>
      match generation.phase with
      | .awaitMemories mood currentTime => some (vm.prompt generation mood currentTime)
      | _ => none
  | _ => none

/-- Two steps of generation `i` lead to alike states if they do for generations in the same phase. -/
theorem Alike.bind_generation {next next' : Generation → Option ChatViewModel} (h : Alike since a b)
    (i : Nat)
    (hnext : ∀ g g', a.generations[i]? = some g → g.userMessage = g'.userMessage →
      g.phase = g'.phase → Option.Rel (Alike since) (next g) (next' g')) :
    Option.Rel (Alike since) (a.generations[i]?.bind next) (b.generations[i]?.bind next') := by
  rcases h.generations i with ⟨ha, hb⟩ | ⟨g, g', ha, hb, huser, hphase⟩
  · rw [ha, hb]
    exact .none
  · rw [ha, hb]
    exact hnext g g' ha huser hphase

/-- Alike states take the same steps to alike states. -/
theorem alike_step (h : Alike since a b) (event : Event) :
    Option.Rel (Alike since) (a.step event) (b.step event) := by
  unfold step
  by_cases hc : a.crashed = true
  · rw [if_pos hc, if_pos (h.crashed ▸ hc)]
    exact .none
  · rw [if_neg hc, if_neg (h.crashed ▸ hc)]
    cases event with
    | tick ms =>
      refine .some { h with since_le := ?_, now := ?_ }
      · exact h.since_le.trans (Int.le_add_of_nonneg_right (Int.natCast_nonneg ms))
      · show a.now + ms = b.now + ms
        rw [h.now]
    | sendMessage userMessage => exact .some (h.send userMessage)
    | contextMemories i outcome =>
      refine h.bind_generation i fun g g' ha huser hphase => ?_
      simp only [← hphase]
      split
      · next mood currentTime hphase =>
        have hsince : g.phase.Since since := h.phases g (List.mem_of_getElem? ha)
        rw [hphase] at hsince
        rw [h.prompt huser mood hsince]
        exact .some (h.resume (h.await huser (.awaitGenerate _ _) trivial) i g g' outcome)
      · exact .none
    | onToken i token =>
      refine h.bind_generation i fun g g' ha huser hphase => ?_
      simp only [← hphase]
      split
      · next prompt streamed _ =>
        have hresponse : Alike since { a with currentResponse := a.currentResponse ++ token }
            { b with currentResponse := b.currentResponse ++ token } :=
          { h with response := congrArg (· ++ token) h.response }
        exact .some (hresponse.await huser (.awaitGenerate _ _) trivial)
      · exact .none
    | generated i outcome =>
      refine h.bind_generation i fun g g' ha huser hphase => ?_
      simp only [← hphase]
      split
      · next prompt streamed _ =>
        exact .some (h.resume ((h.addReply g g' streamed).saveIfImportant huser) i g g' outcome)
      · exact .none
    | memorySaved i outcome =>
      refine h.bind_generation i fun g g' ha huser hphase => ?_
      simp only [← hphase]
      split
      · next memory hsave =>
        have hid : g.phase.Since since := h.phases g (List.mem_of_getElem? ha)
        rw [hsave] at hid
        have hdatabase : Alike since
            { a with database := MemoryRepository.saveMemory memory a.database }
            { b with database := MemoryRepository.saveMemory memory b.database } :=
          { h with memories := h.memories.saveMemory hid }
        exact .some (h.resume (hdatabase.finish i) i g g' outcome)
      · exact .none
    | clearChat => exact .some h.clear
    | load event =>
      show Option.Rel (Alike since) ((a.loader.step event).map _) ((b.loader.step event).map _)
      rw [← h.loader]
      cases a.loader.step event with
      | none => exact .none
      | some result => exact .some (h.withLoader result.1 result.2)

theorem alike_promptOf (h : Alike since a b) (event : Event) : a.promptOf event = b.promptOf event := by
  unfold promptOf
  split
  · next i =>
    rcases h.generations i with ⟨ha, hb⟩ | ⟨g, g', ha, hb, huser, hphase⟩
    · simp only [ha, hb, Option.bind_none]
    · simp only [ha, hb, Option.bind_some, ← hphase]
      split
      · next mood currentTime hwaits =>
        have hsince : g.phase.Since since := h.phases g (List.mem_of_getElem? ha)
        rw [hwaits] at hsince
        rw [h.prompt huser mood hsince]
      · rfl
  · rfl

/-- Alike states build the same prompts, whatever happens. -/
theorem outputs_of_alike (h : Alike since a b) (post : List Event) :
    machine.outputs promptOf a post = machine.outputs promptOf b post :=
  Machine.outputs_lockstep (R := Alike since)
    (fun _ _ event h => ⟨alike_step h event, fun _ _ => alike_promptOf h event⟩) h post

/-! ## The background of a run -/

/-- Time and loads: what happens whatever is said. -/
def isBackground : Event → Bool
  | .tick _ | .load _ => true
  | _ => false

/-- The clock and the loader, on their own. -/
def backgroundMachine : Machine (Int × ModelLoader) Event where
  step s
    | .tick ms => some (s.1 + ms, s.2)
    | .load event => (s.2.step event).map fun result => (s.1, result.1)
    | _ => some s

def background (vm : ChatViewModel) : Int × ModelLoader := (vm.now, vm.loader)

theorem background_run (hrun : machine.run s es = some vm) :
    backgroundMachine.run s.background (es.filter isBackground) = some vm.background := by
  refine Machine.run_project (fun s e t hstep hkeep => ?_) (fun s e t hstep hskip => ?_) hrun
  · have htransition := transition_of_step (show s.step e = some t from hstep)
    cases htransition with
    | tick ms => rfl
    | loaded event loader effect hload =>
      show (s.loader.step event).map _ = _
      rw [hload]
      cases effect <;> rfl
    | failed i event generation hi hresumes =>
      generalize generation.phase = phase at hresumes
      cases hresumes <;> cases hkeep
    | died i event generation hi hresumes =>
      generalize generation.phase = phase at hresumes
      cases hresumes <;> cases hkeep
    | _ => cases hkeep
  · have htransition := transition_of_step (show s.step e = some t from hstep)
    cases htransition with
    | tick ms => cases hskip
    | loaded event loader effect hload => cases hskip
    | _ => rfl

/-! ## After a clear -/

/-- The database keeps its way to compute scores. -/
theorem contextScore_of_run (hrun : machine.run s es = some vm) :
    vm.contextScore = s.contextScore := by
  refine invariant_of_run (I := fun vm => vm.contextScore = s.contextScore)
    (fun vm event next h hscore => ?_) rfl hrun
  cases h with
  | loaded event loader effect hstep => cases effect <;> exact hscore
  | _ => exact hscore

/-- Without a running generation the accumulator is empty. -/
theorem response_step (vm : ChatViewModel) (event : Event) (next : ChatViewModel)
    (h : Transition vm event next) (hr : vm.generations = [] → vm.currentResponse = []) :
    next.generations = [] → next.currentResponse = [] := by
  have hset : ∀ {i : Nat} {g g' : Generation}, vm.generations[i]? = some g →
      vm.generations.set i g' ≠ [] := by
    intro i g g' hi hnil
    rw [List.set_eq_nil_iff] at hnil
    rw [hnil] at hi
    cases hi
  cases h with
  | accepted userMessage hready => exact fun _ => rfl
  | promptBuilt i generation mood currentTime hi hphase => exact fun hnil => absurd hnil (hset hi)
  | streamed i token generation prompt streamed hi hphase =>
    exact fun hnil => absurd hnil (hset hi)
  | replied i generation prompt streamed hi hphase himportance => exact fun _ => rfl
  | repliedImportant i generation prompt streamed hi hphase himportance =>
    exact fun hnil => absurd hnil (hset hi)
  | saved i generation memory hi hphase => exact fun _ => rfl
  | failed i event generation hi hresumes => exact fun _ => rfl
  | died i event generation hi hresumes => exact fun _ => rfl
  | loaded event loader effect hstep => cases effect <;> exact hr
  | _ => exact hr

/-- A message that is saved as a memory and makes the mood happy. -/
def confession : List Event :=
  boot ++ exchange (utf16 "I love you") (utf16 "yo") ++ [.memorySaved 0 (.ok ())]

/--
**After a clear, the prompts do not depend on the messages before it, if these left the same
memories to show and the same mood.**

The scores are whatever the database makes of them. Two tables that show the same memories now can
show different ones later, when a rounding puts another row on top, so the condition is about every
time from now on.
-/
theorem prompts_after_clear {now : Int} {database : MemoryTable} {isNativeLoaded : Bool}
    {native : NativeLayer} {storage : Storage} {contextScore : MemoryDao.ContextScore}
    {pre pre' : List Event} {vm' : ChatViewModel}
    (hrun : machine.run (init now database isNativeLoaded native storage contextScore)
      (pre ++ [.clearChat]) = some vm)
    (hrun' : machine.run (init now database isNativeLoaded native storage contextScore)
      (pre' ++ [.clearChat]) = some vm')
    (hbackground : pre.filter isBackground = pre'.filter isBackground)
    (hidle : vm.generations = []) (hidle' : vm'.generations = [])
    (hmemories : SameMemories contextScore vm.now vm.database vm'.database)
    (hmood : SameMood vm.personalityManager vm'.personalityManager) (post : List Event) :
    machine.outputs promptOf vm post = machine.outputs promptOf vm' post := by
  have hresponse : ∀ {es : List Event} {t : ChatViewModel},
      machine.run (init now database isNativeLoaded native storage contextScore) es = some t →
      t.generations = [] → t.currentResponse = [] :=
    fun hrun => invariant_of_run
      (I := fun vm => vm.generations = [] → vm.currentResponse = []) response_step
      (fun _ => rfl) hrun
  have hscore : vm.contextScore = contextScore := contextScore_of_run hrun
  have hscore' : vm'.contextScore = contextScore := contextScore_of_run hrun'
  have hsame : vm.background = vm'.background := by
    have hb := background_run hrun
    have hb' := background_run hrun'
    rw [List.filter_append, hbackground, ← List.filter_append] at hb
    rw [hb, Option.some.injEq] at hb'
    exact hb'
  rw [background, background, Prod.mk.injEq] at hsame
  rw [← hscore] at hmemories
  obtain ⟨before, _, hc, rfl⟩ := clearChat_of_run hrun
  obtain ⟨before', _, hc', rfl⟩ := clearChat_of_run hrun'
  have halike : Alike before.clearChat.now before.clearChat before'.clearChat :=
    { since_le := le_rfl
      now := hsame.1
      loader := hsame.2
      crashed := hc.trans hc'.symm
      response := by rw [hresponse hrun hidle, hresponse hrun' hidle']
      history := rfl
      score := hscore.trans hscore'.symm
      memories := hmemories
      mood := hmood
      work := by rw [hidle, hidle']
      phases := by simp [hidle] }
  exact outputs_of_alike halike post

/-- The same message is remembered in both conversations. What else was said leaves nothing. -/
theorem prompts_after_clear_smallTalk :
    ∃ vm vm', machine.run phone (confession ++ exchange (utf16 "hi") (utf16 "yo") ++
        [.tick 1000, .clearChat]) = some vm ∧
      machine.run phone (confession ++ exchange (utf16 "ok") (utf16 "hm") ++
        [.tick 1000, .clearChat]) = some vm' ∧
      vm.database.rows ≠ [] ∧
      ∀ post, machine.outputs promptOf vm post = machine.outputs promptOf vm' post := by
  let view : ChatViewModel → List Generation × List MemoryEntity × Mood × Int := fun vm =>
    (vm.generations, vm.database.rows, vm.personalityManager.currentMood,
      vm.personalityManager.lastMoodChangeTime)
  let row : MemoryEntity :=
    { id := 1, content := utf16 "User said: I love you", importanceScore := 5, timestamp := 0,
      associatedMood := utf16 "HAPPY" }
  have hview : (machine.run phone (confession ++ exchange (utf16 "hi") (utf16 "yo") ++
      [.tick 1000] ++ [.clearChat])).map view = some ([], [row], .happy, 0) := by decide +kernel
  have hview' : (machine.run phone (confession ++ exchange (utf16 "ok") (utf16 "hm") ++
      [.tick 1000] ++ [.clearChat])).map view = some ([], [row], .happy, 0) := by decide +kernel
  obtain ⟨vm, hrun, hvm⟩ := Option.map_eq_some_iff.mp hview
  obtain ⟨vm', hrun', hvm'⟩ := Option.map_eq_some_iff.mp hview'
  simp only [view, Prod.mk.injEq] at hvm hvm'
  obtain ⟨hidle, hrows, hmood, hchanged⟩ := hvm
  obtain ⟨hidle', hrows', hmood', hchanged'⟩ := hvm'
  refine ⟨vm, vm', hrun, hrun', by simp [hrows], ?_⟩
  refine prompts_after_clear hrun hrun' rfl hidle hidle' (fun currentTime _ => ?_)
    ⟨hmood.trans hmood'.symm, fun _ => hchanged.trans hchanged'.symm⟩
  rw [getContextMemoriesBy_eq_take, getContextMemoriesBy_eq_take, hrows, hrows']

/-- After the clear, the prompt for the same message still differs. -/
theorem confession_not_forgotten :
    ∃ vm vm', machine.run phone (confession ++ [.clearChat]) = some vm ∧
      machine.run phone (boot ++ exchange (utf16 "hi") (utf16 "yo") ++ [.clearChat]) =
        some vm' ∧
      confession.filter isBackground =
        (boot ++ exchange (utf16 "hi") (utf16 "yo")).filter isBackground ∧
      vm.generations = [] ∧ vm'.generations = [] ∧
      machine.outputs promptOf vm [.sendMessage (utf16 "ok"), .contextMemories 0 (.ok ())] ≠
        machine.outputs promptOf vm' [.sendMessage (utf16 "ok"), .contextMemories 0 (.ok ())] := by
  let later : List Event := [.sendMessage (utf16 "ok"), .contextMemories 0 (.ok ())]
  have hidle : (machine.run phone (confession ++ [.clearChat])).map (·.generations) =
      some [] := by decide +kernel
  have hidle' : (machine.run phone (boot ++ exchange (utf16 "hi") (utf16 "yo") ++
      [.clearChat])).map (·.generations) = some [] := by decide +kernel
  have hprompts : (machine.run phone (confession ++ [.clearChat])).map
        (machine.outputs promptOf · later) ≠
      (machine.run phone (boot ++ exchange (utf16 "hi") (utf16 "yo") ++ [.clearChat])).map
        (machine.outputs promptOf · later) := by decide +kernel
  obtain ⟨vm, hrun, hvm⟩ := Option.map_eq_some_iff.mp hidle
  obtain ⟨vm', hrun', hvm'⟩ := Option.map_eq_some_iff.mp hidle'
  rw [hrun, hrun', Option.map_some, Option.map_some] at hprompts
  exact ⟨vm, vm', hrun, hrun', rfl, hvm, hvm', fun h => hprompts (congrArg some h)⟩

end ChatViewModel

end Kaede
