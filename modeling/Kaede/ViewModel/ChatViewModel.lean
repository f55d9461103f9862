import Kaede.Ai.PromptBuilder
import Kaede.Data.MemoryManager
import Kaede.Data.MemoryRepository
import Kaede.Infra.Machine
import Kaede.ViewModel.ModelLoader

/-!
# `ChatViewModel`

The view model as a machine. Its coroutines run on the main thread, so the code between two
suspension points is one step. The suspension points are `getContextMemories`, `generate` (which
calls back once for each token) and `saveMemory`, and the event that resumes a coroutine says how
the call ended.

A step reads the clock once. No step adds more than one message, so the readings of the messages
are any non-decreasing sequence.

The strings of the performance display are left out: nothing reads them back.

Fields marked as ghost are not in the source. No step decides anything by them.
-/

namespace Kaede

open Infra

/-! ## Ghost data -/

inductive Speaker where
  | user
  | kaede
deriving DecidableEq, Repr

/-- What was said in answering the `sendMessage` call number `call`. -/
structure Utterance where
  speaker : Speaker
  text : Text
  call : Nat
deriving DecidableEq, Repr

/-- Where a message comes from. Calls of `sendMessage` and loads are numbered from `0`. -/
inductive Source where
  | user (call : Nat)
  /-- `streamed` is what this call's `generate` passed to `onToken`. -/
  | reply (call : Nat) (streamed : Text)
  | failure (call : Nat)
  | ready (load : Nat)
  | system
deriving DecidableEq, Repr

/-- The call that a message belongs to. -/
def Source.call? : Source → Option Nat
  | .user call | .reply call _ | .failure call => some call
  | .ready _ | .system => none

/-! ## State -/

structure ChatMessage where
  content : Text
  isUser : Bool
  timestamp : Int
  /-- Ghost. -/
  source : Source
deriving DecidableEq, Repr

/-- The suspension point at which a generation waits. -/
inductive Phase where
  /-- In `getContextMemories`. The mood and the current time are read before the call. -/
  | awaitMemories (mood : Mood) (currentTime : Int)
  /-- In `generate`. What it has streamed so far is ghost. -/
  | awaitGenerate (prompt : Text) (streamed : Text)
  /-- In `saveMemory`. -/
  | awaitSave (memory : MemoryEntity)
deriving DecidableEq, Repr

/-- A coroutine of `generateResponse` that has not finished. -/
structure Generation where
  userMessage : Text
  phase : Phase
  /-- Ghost. -/
  call : Nat
  /-- Ghost: what was said since the last clear, before the user message. -/
  earlier : List Utterance
deriving DecidableEq, Repr

/-- Ghost: what has happened so far. -/
structure Trace where
  /-- The texts of the `sendMessage` calls that have found the model ready. -/
  sent : List Text
  /-- What was said since the buffer was last cleared. -/
  sinceClear : List Utterance
  /-- Everything that was said. -/
  said : List Utterance
  /-- Every message that was ever in the list. -/
  published : List ChatMessage
deriving DecidableEq, Repr

/-- How many calls of `sendMessage` have found the model ready. -/
def Trace.calls (trace : Trace) : Nat := trace.sent.length

structure ChatViewModel where
  /-- What `System.currentTimeMillis()` reads. -/
  now : Int
  messages : List ChatMessage
  isTyping : Bool
  currentResponse : Text
  currentMood : Mood
  database : MemoryTable
  /-- How the database ranks what it shows. No step changes it. -/
  contextScore : MemoryDao.ContextScore
  personalityManager : PersonalityManager
  memoryManager : MemoryManager Utterance
  loader : ModelLoader
  generations : List Generation
  /-- A throwable has ended the process. -/
  crashed : Bool
  /-- Ghost. -/
  trace : Trace

inductive Event where
  /-- Time passes. -/
  | tick (ms : Nat)
  | sendMessage (userMessage : Text)
  | contextMemories (generation : Nat) (outcome : Except Throwable Unit)
  | onToken (generation : Nat) (token : Text)
  | generated (generation : Nat) (outcome : Except Throwable Unit)
  | memorySaved (generation : Nat) (outcome : Except Throwable Unit)
  | clearChat
  | load (event : LoadEvent)

namespace ChatViewModel

/-- A new view model over the database of the app. Its first load has started. -/
def init (now : Int) (database : MemoryTable) (isNativeLoaded : Bool) (native : NativeLayer)
    (storage : Storage) (contextScore : MemoryDao.ContextScore := MemoryDao.exactScore) :
    ChatViewModel :=
  { now := now, messages := [], isTyping := false, currentResponse := [], currentMood := .normal,
    database := database, contextScore := contextScore, personalityManager := .init now,
    memoryManager := .init now, loader := .init isNativeLoaded native storage, generations := [],
    crashed := false, trace := { sent := [], sinceClear := [], said := [], published := [] } }

/-! ## Messages -/

/-- `_messages.value = _messages.value + ChatMessage(content, isUser)`. -/
def addMessage (content : Text) (isUser : Bool) (source : Source) (vm : ChatViewModel) :
    ChatViewModel :=
  let message : ChatMessage :=
    { content := content, isUser := isUser, timestamp := vm.now, source := source }
  { vm with
    messages := vm.messages ++ [message]
    trace := { vm.trace with published := vm.trace.published ++ [message] } }

def addSystemMessage (content : Text) (vm : ChatViewModel) (source : Source := .system) :
    ChatViewModel :=
  vm.addMessage content false source

/-- `memoryManager.addToBuffer(message)`. -/
def addToBuffer (utterance : Utterance) (message : Text) (vm : ChatViewModel) : ChatViewModel :=
  { vm with
    memoryManager := vm.memoryManager.addToBuffer vm.now utterance message
    trace :=
      { vm.trace with
        sinceClear := vm.trace.sinceClear ++ [utterance]
        said := vm.trace.said ++ [utterance] } }

/-! ## `generateResponse` -/

/-- Up to the call of `getContextMemories`. -/
def generateResponse (userMessage : Text) (call : Nat) (earlier : List Utterance)
    (vm : ChatViewModel) : ChatViewModel :=
  let reading := vm.personalityManager.getCurrentMood vm.now
  let generation : Generation :=
    { userMessage := userMessage, phase := .awaitMemories reading.1 vm.now, call := call,
      earlier := earlier }
  { vm with
    isTyping := true
    currentResponse := []
    personalityManager := reading.2
    generations := vm.generations ++ [generation] }

/-- The generation at place `i` waits in `phase` from now on. -/
def await (i : Nat) (generation : Generation) (phase : Phase) (vm : ChatViewModel) :
    ChatViewModel :=
  { vm with generations := vm.generations.set i { generation with phase := phase } }

/-- The `finally` block. The coroutine ends. -/
def finish (i : Nat) (vm : ChatViewModel) : ChatViewModel :=
  { vm with isTyping := false, currentResponse := [], generations := vm.generations.eraseIdx i }

/-- The `catch` block, and then the `finally` block. -/
def fail (i : Nat) (generation : Generation) (vm : ChatViewModel) : ChatViewModel :=
  (vm.addMessage (utf16 "Kaede had a thinking moment... Try again? 💜") false
    (.failure generation.call)).finish i

/-- The body of the `try` block goes on with `next` when the call returned. An `Exception` is
caught. An `Error` passes through `finally` and leaves the coroutine. -/
def resume (vm : ChatViewModel) (i : Nat) (generation : Generation)
    (outcome : Except Throwable Unit) (next : ChatViewModel) : ChatViewModel :=
  match outcome with
  | .ok () => next
  | .error .exception => vm.fail i generation
  | .error .error => { vm.finish i with crashed := true }

/-- The prompt, once the memories are there. -/
def prompt (generation : Generation) (mood : Mood) (currentTime : Int) (vm : ChatViewModel) :
    Text :=
  PromptBuilder.buildPrompt mood
    (MemoryRepository.getContextMemoriesBy vm.contextScore currentTime 5 vm.database)
    vm.memoryManager.getConversationHistory generation.userMessage

/-- `generate` has returned: the reply is added to the chat and to the buffer. -/
def addReply (generation : Generation) (streamed : Text) (vm : ChatViewModel) : ChatViewModel :=
  let fullResponse := vm.currentResponse
  (vm.addMessage fullResponse false (.reply generation.call streamed)).addToBuffer
    ⟨.kaede, fullResponse, generation.call⟩ (utf16 "Kaede: " ++ fullResponse)

/-- From the reply to the call of `saveMemory`, if the message is important enough. -/
def saveIfImportant (i : Nat) (generation : Generation) (vm : ChatViewModel) : ChatViewModel :=
  let importance := PromptBuilder.calculateImportance generation.userMessage
  if 5 ≤ importance then
    let reading := vm.personalityManager.getCurrentMood vm.now
    let memory := MemoryRepository.memoryToSave vm.now
      (utf16 "User said: " ++ generation.userMessage) importance .conversation reading.1.name
    { vm with personalityManager := reading.2 }.await i generation (.awaitSave memory)
  else vm.finish i

/-! ## The user's calls -/

def sendMessage (userMessage : Text) (vm : ChatViewModel) : ChatViewModel :=
  if vm.loader.modelState.isReady then
    let call := vm.trace.calls
    let earlier := vm.trace.sinceClear
    let vm := vm.addMessage userMessage true (.user call)
    let vm := vm.addToBuffer ⟨.user, userMessage, call⟩ (utf16 "User: " ++ userMessage)
    let personalityManager := vm.personalityManager.updateMood vm.now userMessage
    let reading := personalityManager.getCurrentMood vm.now
    let vm :=
      { vm with
        personalityManager := reading.2
        currentMood := reading.1
        trace := { vm.trace with sent := vm.trace.sent ++ [userMessage] } }
    vm.generateResponse userMessage call earlier
  else vm.addSystemMessage (utf16 "Kaede is still loading... Please wait.")

def clearChat (vm : ChatViewModel) : ChatViewModel :=
  { vm with
    messages := []
    memoryManager := vm.memoryManager.clearBuffer vm.now
    trace := { vm.trace with sinceClear := [] } }.addSystemMessage
      (utf16 "Memory cleared! Kaede remembers nothing~ 💜")

/-- What a step of the loader does to the view model. -/
def onLoad (loader : ModelLoader) (effect : LoadEffect) (vm : ChatViewModel) : ChatViewModel :=
  match effect with
  | .silent => { vm with loader := loader }
  | .ready load =>
    { vm with loader := loader }.addSystemMessage (utf16 "✨ Kaede is ready! (MLC-LLM)")
      (.ready load)
  | .crash => { vm with loader := loader, crashed := true }

/-! ## The machine -/

def step (vm : ChatViewModel) (event : Event) : Option ChatViewModel :=
  if vm.crashed then none
  else
    match event with
    | .tick ms => some { vm with now := vm.now + ms }
    | .sendMessage userMessage => some (vm.sendMessage userMessage)
    | .contextMemories i outcome =>
      vm.generations[i]?.bind fun generation =>
        match generation.phase with
        | .awaitMemories mood currentTime =>
          let prompt := vm.prompt generation mood currentTime
          some (vm.resume i generation outcome
            (vm.await i generation (.awaitGenerate prompt [])))
        | _ => none
    | .onToken i token =>
      vm.generations[i]?.bind fun generation =>
        match generation.phase with
        | .awaitGenerate prompt streamed =>
          some ({ vm with currentResponse := vm.currentResponse ++ token }.await i generation
            (.awaitGenerate prompt (streamed ++ token)))
        | _ => none
    | .generated i outcome =>
      vm.generations[i]?.bind fun generation =>
        match generation.phase with
        | .awaitGenerate _ streamed =>
          some (vm.resume i generation outcome
            ((vm.addReply generation streamed).saveIfImportant i generation))
        | _ => none
    | .memorySaved i outcome =>
      vm.generations[i]?.bind fun generation =>
        match generation.phase with
        | .awaitSave memory =>
          some (vm.resume i generation outcome
            ({ vm with database := MemoryRepository.saveMemory memory vm.database }.finish i))
        | _ => none
    | .clearChat => some vm.clearChat
    | .load event =>
      (vm.loader.step event).map fun result => vm.onLoad result.1 result.2

def machine : Machine ChatViewModel Event where
  step := step

/-! ## A phone without the model -/

/-- A library that is there, but has no model to run. -/
def idleLibrary : NativeLayer where
  loadLibrary := .ok ()
  nativeInit := .ok true
  nativeLoadModel _ _ := .ok false
  nativeGenerate _ _ := { tokens := [], outcome := .ok () }

/-- Assets without the model. -/
def bareStorage : Storage where
  cacheDir := { path := utf16 "/cache", startsAtRoot := by decide }
  assetList := some (some [])
  cachedModel := none

/-- A new view model on a phone that has only these. -/
def phone : ChatViewModel := init 0 { rows := [], lastId := 0 } true idleLibrary bareStorage

/-- Its first load falls back to the stub. -/
def boot : List Event := [.load (.wrote 0), .load (.wrote 0), .load (.returned 0)]

/-- A message and its answer, with nothing in between. -/
def exchange (userMessage reply : Text) : List Event :=
  [.sendMessage userMessage, .contextMemories 0 (.ok ()), .onToken 0 reply, .generated 0 (.ok ())]

end ChatViewModel

end Kaede
