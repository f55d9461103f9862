import Kaede.Text
import Kaede.AiChat.Session

/-!
# The inference engine (InferenceEngineImpl.kt)

All work runs on a dispatcher of one thread. The bodies of the calls do not suspend, and what they
read and write is theirs while they hold the dispatcher, so each of them is one step. A flow of
tokens gives the dispatcher away only in `emit`. `cleanUp` and `destroy` set `_cancelGeneration` on
the thread of their caller, at any time, and their bodies wait for the dispatcher; so a turn of the
flow's loop is three steps: it reads the flag, it generates, and it emits.

Models and contexts are numbered. Which of them are live, and how often something was used or freed
that is not, is ghost: the code reads the globals only.
-/

namespace Kaede.AiChat

open Infra

/-! ## The native globals -/

/-- `g_model` and `g_context`. `unload` does not null them. -/
structure Resources where
  gModel : Option Nat
  gContext : Option Nat
  /-- Ghost: the number of the next model or context. -/
  next : Nat
  /-- Ghost. -/
  liveModels : List Nat
  /-- Ghost. -/
  liveContexts : List Nat
  /-- Ghost: uses and frees of what is null or no longer live. -/
  faults : Nat
deriving DecidableEq, Repr

namespace Resources

def empty : Resources := ⟨none, none, 0, [], [], 0⟩

/-- One more fault unless `id` is live. -/
def touch (live : List Nat) (id : Option Nat) (r : Resources) : Resources :=
  if id.any fun n => live.contains n then r else { r with faults := r.faults + 1 }

/-- `g_model = llama_model_load_from_file(..)`. -/
def load (r : Resources) : Resources :=
  { r with gModel := some r.next, liveModels := r.next :: r.liveModels, next := r.next + 1 }

def useModel (r : Resources) : Resources := r.touch r.liveModels r.gModel

def useContext (r : Resources) : Resources := r.touch r.liveContexts r.gContext

/-- `g_context = init_context(g_model)`. -/
def prepare (r : Resources) : Resources :=
  let r := r.useModel
  { r with gContext := some r.next, liveContexts := r.next :: r.liveContexts, next := r.next + 1 }

/-- `llama_free(g_context)`. -/
def freeContext (r : Resources) : Resources :=
  let r := r.useContext
  { r with liveContexts := r.liveContexts.filter fun n => some n ≠ r.gContext }

/-- `llama_model_free(g_model)`. -/
def freeModel (r : Resources) : Resources :=
  let r := r.useModel
  { r with liveModels := r.liveModels.filter fun n => some n ≠ r.gModel }

/-- `unload`: the memory is cleared, and then the context and the model are freed. -/
def unload (r : Resources) : Resources := r.useContext.freeContext.freeModel

end Resources

/-! ## The engine -/

/-- `InferenceEngine.State`. The exception in `Error` is not read. -/
inductive State
  | uninitialized
  | initializing
  | initialized
  | loadingModel
  | unloadingModel
  | modelReady
  | benchmarking
  | processingSystemPrompt
  | processingUserPrompt
  | generating
  | error
deriving DecidableEq, Repr

/-- `State.isModelLoaded`. -/
def State.isModelLoaded : State → Bool
  | .modelReady | .benchmarking | .processingSystemPrompt | .processingUserPrompt | .generating =>
    true
  | _ => false

/-- Where a flow is in its loop. -/
inductive LoopPoint
  /-- before `!_cancelGeneration` -/
  | test
  /-- before `generateNextToken()` -/
  | generate
  /-- before `emit(utf8token)` -/
  | emit (utf8token : List UInt8)
deriving DecidableEq, Repr

structure Engine (Token : Type*) where
  state : State
  readyForSystemPrompt : Bool
  cancelGeneration : Bool
  /-- The flow that holds the dispatcher. -/
  running : Option (Nat × LoopPoint)
  /-- The flows that are suspended in `emit`. -/
  suspended : List Nat
  /-- The calls of `cleanUp` that wait for the dispatcher. -/
  waitingCleanUps : Nat
  /-- The calls of `destroy` that wait for the dispatcher. -/
  waitingDestroys : Nat
  resources : Resources
  session : Session Token

/-- How `load` and `prepare` go. -/
inductive LoadOutcome
  /-- a `require` on the file fails -/
  | fileRejected
  | loadFailed
  | prepareFailed
  | loaded
deriving DecidableEq, Repr

/-- What the caller or the collector sees of a step. -/
inductive Seen
  | nothing
  | threw
  /-- `emit` is called. -/
  | emitted (utf8token : List UInt8)
deriving DecidableEq, Repr

/-- The text that is emitted. -/
def Seen.text : Seen → Option (List UInt8)
  | .emitted utf8token => some utf8token
  | _ => none

/-- The model that gets loaded, and `GetStringUTFChars`. -/
structure Host (Token : Type*) where
  model : Model Token
  utfChars : Text → List UInt8

namespace Engine

variable {Token : Type*} (host : Host Token)

def created : Engine Token where
  state := .uninitialized
  readyForSystemPrompt := false
  cancelGeneration := false
  running := none
  suspended := []
  waitingCleanUps := 0
  waitingDestroys := 0
  resources := .empty
  session := .prepared

/-- The body that `init` launches. An `UnsatisfiedLinkError` leaves the state as it is. -/
def init (libraryLoaded : Bool) (s : Engine Token) : Engine Token × Seen :=
  if s.state = .uninitialized then
    if libraryLoaded then ({ s with state := .initialized }, .nothing)
    else ({ s with state := .initializing }, .threw)
  else (s, .threw)

/-- `loadModel`. The fresh context has an empty memory; the other globals stay as they are. -/
def loadModel (outcome : LoadOutcome) (s : Engine Token) : Engine Token × Seen :=
  if s.state = .initialized then
    match outcome with
    | .fileRejected => ({ s with state := .error }, .threw)
    | .loadFailed => ({ s with state := .error, readyForSystemPrompt := false }, .threw)
    | .prepareFailed =>
      ({ s with
          state := .error
          readyForSystemPrompt := false
          resources := s.resources.load.useModel }, .threw)
    | .loaded =>
      ({ s with
          state := .modelReady
          readyForSystemPrompt := true
          cancelGeneration := false
          resources := s.resources.load.prepare
          session := { s.session with memory := [] } }, .nothing)
  else (s, .threw)

/-- `setSystemPrompt`. -/
def setSystemPrompt (prompt : Text) (computed : Nat → Bool) (s : Engine Token) :
    Engine Token × Seen :=
  if prompt.all isWhitespace then (s, .threw)
  else if !s.readyForSystemPrompt then (s, .threw)
  else if s.state = .modelReady then
    match s.session.processSystemPrompt host.model (host.utfChars prompt) computed with
    | (session, 0) =>
      ({ s with
          readyForSystemPrompt := false
          resources := s.resources.useContext
          session }, .nothing)
    | (session, _) =>
      ({ s with
          state := .error
          readyForSystemPrompt := false
          resources := s.resources.useContext
          session }, .threw)
  else (s, .threw)

/-- `sendUserPrompt`, from the collection of its flow to the loop. -/
def sendUserPrompt (flow : Nat) (message : Text) (predictLength : Int32) (computed : Nat → Bool)
    (s : Engine Token) : Engine Token × Seen :=
  if message.isEmpty then (s, .threw)
  else if s.state = .modelReady then
    match s.session.processUserPrompt host.model (host.utfChars message) predictLength computed with
    | (session, 0) =>
      ({ s with
          state := .generating
          readyForSystemPrompt := false
          running := some (flow, .test)
          resources := s.resources.useContext
          session }, .nothing)
    -- `return@flow`
    | (session, _) =>
      ({ s with
          state := .processingUserPrompt
          readyForSystemPrompt := false
          resources := s.resources.useContext
          session }, .nothing)
  else (s, .threw)

/-- `while (!_cancelGeneration)`, for the flow that holds the dispatcher. -/
def readFlag (flow : Nat) (s : Engine Token) : Engine Token × Seen :=
  if s.cancelGeneration then ({ s with state := .modelReady, running := none }, .nothing)
  else ({ s with running := some (flow, .generate) }, .nothing)

/--
`generateNextToken()`, and where the loop goes with its result.

It counts as a use of the context also when it returns at the stop position.
-/
def generateNextToken (flow : Nat) (newTokenId : Token) (computed : Bool) (s : Engine Token) :
    Engine Token × Seen :=
  match s.session.generateNextToken host.model newTokenId computed with
  | (session, none) =>
    ({ s with
        state := .modelReady
        running := none
        resources := s.resources.useContext
        session }, .nothing)
  | (session, some []) =>
    ({ s with
        running := some (flow, .test)
        resources := s.resources.useContext
        session }, .nothing)
  | (session, some utf8token) =>
    ({ s with
        running := some (flow, .emit utf8token)
        resources := s.resources.useContext
        session }, .nothing)

/-- `emit(utf8token)`. The flow gives the dispatcher away. -/
def emit (flow : Nat) (utf8token : List UInt8) (s : Engine Token) : Engine Token × Seen :=
  ({ s with running := none, suspended := flow :: s.suspended }, .emitted utf8token)

/-- The collector of a suspended flow goes away: `emit` throws. -/
def cancelFlow (flow : Nat) (s : Engine Token) : Engine Token × Seen :=
  ({ s with state := .modelReady, suspended := s.suspended.erase flow }, .threw)

/-- `bench`. It has a context of its own. -/
def bench (s : Engine Token) : Engine Token × Seen :=
  if s.state = .modelReady then
    ({ s with readyForSystemPrompt := false, resources := s.resources.useModel }, .nothing)
  else (s, .threw)

/-- The body of `cleanUp`. -/
def cleanUp (s : Engine Token) : Engine Token × Seen :=
  match s.state with
  | .modelReady =>
    ({ s with
        state := .initialized
        readyForSystemPrompt := false
        resources := s.resources.unload
        session := s.session.unload }, .nothing)
  | .error => ({ s with state := .initialized }, .nothing)
  | _ => (s, .threw)

/-- The body of `destroy`. -/
def destroy (s : Engine Token) : Engine Token × Seen :=
  match s.state with
  | .uninitialized => ({ s with readyForSystemPrompt := false }, .nothing)
  | .initialized => ({ s with readyForSystemPrompt := false }, .nothing)
  | _ =>
    ({ s with
        readyForSystemPrompt := false
        resources := s.resources.unload
        session := s.session.unload }, .nothing)

end Engine

/-! ## The machine -/

inductive EngineEvent (Token : Type*)
  | init (libraryLoaded : Bool)
  | loadModel (outcome : LoadOutcome)
  | setSystemPrompt (prompt : Text) (computed : Nat → Bool)
  | sendUserPrompt (flow : Nat) (message : Text) (predictLength : Int32) (computed : Nat → Bool)
  /-- The flow that holds the dispatcher goes on in its loop. -/
  | readFlag
  | generateNextToken (newTokenId : Token) (computed : Bool)
  | emit
  /-- A suspended flow gets the dispatcher back. -/
  | resume (flow : Nat)
  | cancelFlow (flow : Nat)
  | bench
  /-- A caller of `cleanUp` sets the flag and waits. -/
  | requestCleanUp
  | cleanUp
  /-- A caller of `destroy` sets the flag and waits. -/
  | requestDestroy
  | destroy

variable {Token : Type*} (host : Host Token)

/-- A step that needs the dispatcher. -/
def onDispatcher (s : Engine Token) (result : Engine Token × Seen) : Option (Engine Token × Seen) :=
  if s.running = none then some result else none

def engineStep (s : Engine Token) : EngineEvent Token → Option (Engine Token × Seen)
  | .init libraryLoaded => onDispatcher s (s.init libraryLoaded)
  | .loadModel outcome => onDispatcher s (s.loadModel outcome)
  | .setSystemPrompt prompt computed => onDispatcher s (s.setSystemPrompt host prompt computed)
  | .sendUserPrompt flow message predictLength computed =>
    onDispatcher s (s.sendUserPrompt host flow message predictLength computed)
  | .readFlag =>
    match s.running with
    | some (flow, .test) => some (s.readFlag flow)
    | _ => none
  | .generateNextToken newTokenId computed =>
    match s.running with
    | some (flow, .generate) => some (s.generateNextToken host flow newTokenId computed)
    | _ => none
  | .emit =>
    match s.running with
    | some (flow, .emit utf8token) => some (s.emit flow utf8token)
    | _ => none
  | .resume flow =>
    if flow ∈ s.suspended then
      onDispatcher s
        ({ s with running := some (flow, .test), suspended := s.suspended.erase flow }, .nothing)
    else none
  | .cancelFlow flow => if flow ∈ s.suspended then onDispatcher s (s.cancelFlow flow) else none
  | .bench => onDispatcher s s.bench
  | .requestCleanUp =>
    some ({ s with cancelGeneration := true, waitingCleanUps := s.waitingCleanUps + 1 }, .nothing)
  | .cleanUp =>
    if 0 < s.waitingCleanUps then
      onDispatcher s ({ s with waitingCleanUps := s.waitingCleanUps - 1 } : Engine Token).cleanUp
    else none
  | .requestDestroy =>
    some ({ s with cancelGeneration := true, waitingDestroys := s.waitingDestroys + 1 }, .nothing)
  | .destroy =>
    if 0 < s.waitingDestroys then
      onDispatcher s ({ s with waitingDestroys := s.waitingDestroys - 1 } : Engine Token).destroy
    else none

def engineMachine : Machine (Engine Token) (EngineEvent Token) where
  step s e := (engineStep host s e).map Prod.fst

/-- What is emitted to the collectors. -/
def emission (s : Engine Token) (e : EngineEvent Token) : Option (List UInt8) :=
  (engineStep host s e).bind fun r => r.2.text

end Kaede.AiChat
