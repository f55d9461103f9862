import Kaede.Infra.Machine
import Kaede.Infra.PositionedCells
import Kaede.AiChat.Utf8Check

/-!
# The native session (ai_chat.cpp)

The globals of `ai_chat.cpp` and the functions that the engine calls through JNI once a model is
loaded and prepared. The sampled token, and whether llama.cpp gets a batch computed, come from
outside.

The context memory is modelled by what `llama_memory_seq_rm`, `llama_memory_seq_add` and
`llama_decode` do with the cells of sequence 0 (llama-kv-cache.cpp, llama-batch.cpp,
llama-context.cpp).
-/

namespace Kaede.AiChat

open Infra

/-! ## Constants -/

def defaultContextSize : Nat := 8192

def overflowHeadroom : Nat := 4

def batchSize : Nat := 512

/-- The size from which on a batch does not fit. -/
def maxBatchSize : Nat := defaultContextSize - overflowHeadroom

/-! ## What llama.cpp supplies -/

inductive Role
  | system
  | user
  | assistant
deriving DecidableEq, Repr

/-- `common_chat_msg`. -/
structure ChatMsg where
  role : Role
  content : List UInt8
deriving DecidableEq, Repr

/-- The loaded model: its chat template, its tokenizer and its vocabulary. -/
structure Model (Token : Type*) where
  /-- `common_chat_templates_was_explicit` -/
  hasChatTemplate : Bool
  /-- `common_chat_format_single`: the past messages, the new one, and whether a reply is opened -/
  formatSingle : List ChatMsg → ChatMsg → Bool → List UInt8
  /-- `common_tokenize`: the text, `add_special` and `parse_special` -/
  tokenize : List UInt8 → Bool → Bool → List Token
  tokenToPiece : Token → List UInt8
  isEog : Token → Bool

/-! ## The context memory -/

variable {Token : Type*}

/-- `llama_memory_seq_rm` on sequence 0. -/
def seqRm (p0 p1 : Nat) (memory : List (Nat × Token)) : List (Nat × Token) :=
  removeRange p0 p1 memory

/-- `llama_memory_seq_add` on sequence 0. -/
def seqAdd (p0 p1 : Nat) (shift : Int) (memory : List (Nat × Token)) : List (Nat × Token) :=
  if shift = 0 ∨ p0 = p1 then memory else shiftRange p0 p1 shift memory

/--
`llama_decode`. A batch that is refused leaves the memory alone.

The positions of the batches here are consecutive, so the first one is `seq_pos_min`. `computed` says
whether the graph is computed.
-/
def llamaDecode (batch : List (Nat × Token)) (computed : Bool) (memory : List (Nat × Token)) :
    Option (List (Nat × Token)) :=
  match batch with
  | [] => none
  | first :: _ =>
    -- "it is required that the sequence positions remain consecutive: Y = X + 1"
    if (lastPosition memory).any fun last => first.1 ≠ last + 1 then none
    else if defaultContextSize < memory.length + batch.length then none
    else if computed then some (memory ++ batch)
    else none

/-! ## The globals -/

/--
The long-term and the short-term states, and the memory of the context.

The positions are those of tokens, so they are far below 2^31; into the stop position goes whatever
the caller asks for, and its sum wraps.
-/
structure Session (Token : Type*) where
  chatMsgs : List ChatMsg
  systemPromptPosition : Nat
  currentPosition : Nat
  stopGenerationPosition : Int32
  cachedTokenChars : List UInt8
  assistantSs : List UInt8
  memory : List (Nat × Token)
  system_le_current : systemPromptPosition ≤ currentPosition

namespace Session

/-- The globals after `prepare`. -/
def prepared : Session Token where
  chatMsgs := []
  systemPromptPosition := 0
  currentPosition := 0
  stopGenerationPosition := 0
  cachedTokenChars := []
  assistantSs := []
  memory := []
  system_le_current := Nat.le_refl 0

def resetLongTermStates (s : Session Token) : Session Token :=
  { s with
    chatMsgs := []
    systemPromptPosition := 0
    currentPosition := 0
    memory := []
    system_le_current := Nat.le_refl 0 }

def resetShortTermStates (s : Session Token) : Session Token :=
  { s with
    stopGenerationPosition := 0
    cachedTokenChars := []
    assistantSs := [] }

/-- How many positions `shift_context` discards. -/
def nDiscard (s : Session Token) : Nat := (s.currentPosition - s.systemPromptPosition) / 2

theorem system_add_nDiscard_le (s : Session Token) :
    s.systemPromptPosition + s.nDiscard ≤ s.currentPosition := by
  have := s.system_le_current
  unfold nDiscard
  omega

/-- Discards the older half of what was appended after the system prompt. -/
def shiftContext (s : Session Token) : Session Token :=
  { s with
    currentPosition := s.currentPosition - s.nDiscard
    memory :=
      seqAdd (s.systemPromptPosition + s.nDiscard) s.currentPosition (-(s.nDiscard : Int))
        (seqRm s.systemPromptPosition (s.systemPromptPosition + s.nDiscard) s.memory)
    system_le_current := by
      have := s.system_add_nDiscard_le
      omega }

variable (m : Model Token)

/-- The formatted message, and the session with the message in it. -/
def chatAddAndFormat (role : Role) (content : List UInt8) (s : Session Token) :
    List UInt8 × Session Token :=
  let newMsg : ChatMsg := ⟨role, content⟩
  (m.formatSingle s.chatMsgs newMsg (role == .user),
    { s with chatMsgs := s.chatMsgs ++ [newMsg] })

/-! ## Decoding -/

/-- The shift that a batch of `curBatchSize` tokens at `i` asks for. -/
def shiftForBatch (startPos i curBatchSize : Nat) (s : Session Token) : Session Token :=
  if startPos + i + curBatchSize ≥ defaultContextSize - overflowHeadroom then s.shiftContext else s

/--
`decode_tokens_in_batches` from batch offset `i` on: 0 when all batches are decoded, 1 otherwise.

`startPos` is an argument of the caller, so a shift does not move it.
-/
def decodeTokensFrom (computed : Nat → Bool) (startPos : Nat) (tokens : List Token) (i : Nat)
    (s : Session Token) : Session Token × Nat :=
  if i < tokens.length then
    let batch := (tokens.drop i).take batchSize
    let s := s.shiftForBatch startPos i batch.length
    match llamaDecode (layoutFrom (startPos + i) batch) (computed i) s.memory with
    | none => (s, 1)
    | some memory => decodeTokensFrom computed startPos tokens (i + batchSize) { s with memory }
  else (s, 0)
termination_by tokens.length - i
decreasing_by unfold batchSize; omega

def decodeTokensInBatches (computed : Nat → Bool) (tokens : List Token) (startPos : Nat)
    (s : Session Token) : Session Token × Nat :=
  decodeTokensFrom computed startPos tokens 0 s

/-! ## The calls -/

/-- The text that is tokenized, and the session with the message in it if there is a template. -/
def formatPrompt (role : Role) (prompt : List UInt8) (s : Session Token) :
    List UInt8 × Session Token :=
  if m.hasChatTemplate then s.chatAddAndFormat m role prompt else (prompt, s)

/-- The positions after a system prompt that was decoded. -/
def afterSystemPrompt (size : Nat) (s : Session Token) : Session Token :=
  { s with
    systemPromptPosition := size
    currentPosition := size
    system_le_current := Nat.le_refl size }

/-- The positions after a user prompt that was decoded. -/
def afterUserPrompt (userPromptSize : Nat) (nPredict : Int32) (s : Session Token) : Session Token :=
  { s with
    currentPosition := s.currentPosition + userPromptSize
    stopGenerationPosition :=
      .ofNat (s.currentPosition + userPromptSize) + .ofNat userPromptSize + nPredict
    system_le_current := Nat.le_add_right_of_le s.system_le_current }

def processSystemPrompt (systemPrompt : List UInt8) (computed : Nat → Bool) (s : Session Token) :
    Session Token × Nat :=
  let (formatted, s) :=
    s.resetLongTermStates.resetShortTermStates.formatPrompt m .system systemPrompt
  let systemTokens := m.tokenize formatted m.hasChatTemplate m.hasChatTemplate
  if systemTokens.length > maxBatchSize then (s, 1)
  else
    match s.decodeTokensInBatches computed systemTokens s.currentPosition with
    | (s, 0) => (s.afterSystemPrompt systemTokens.length, 0)
    | (s, _) => (s, 2)

def processUserPrompt (userPrompt : List UInt8) (nPredict : Int32) (computed : Nat → Bool)
    (s : Session Token) : Session Token × Nat :=
  let (formatted, s) := s.resetShortTermStates.formatPrompt m .user userPrompt
  let userTokens := m.tokenize formatted m.hasChatTemplate m.hasChatTemplate
  -- what is too long is cut off, but `user_prompt_size` stays the whole size
  match s.decodeTokensInBatches computed (userTokens.take maxBatchSize) s.currentPosition with
  | (s, 0) => (s.afterUserPrompt userTokens.length nPredict, 0)
  | (s, _) => (s, 2)

/-- The shift of `generateNextToken`, for endless generation. -/
def shiftWhenFull (s : Session Token) : Session Token :=
  if s.currentPosition ≥ defaultContextSize - overflowHeadroom then s.shiftContext else s

/-- A token that was decoded: the reply is recorded, or text is handed out. -/
def emitToken (newTokenId : Token) (s : Session Token) : Session Token × Option (List UInt8) :=
  if m.isEog newTokenId then ((s.chatAddAndFormat m .assistant s.assistantSs).2, none)
  else
    let cached := s.cachedTokenChars ++ m.tokenToPiece newTokenId
    if isValidUtf8 (cString cached) then
      ({ s with assistantSs := s.assistantSs ++ cached, cachedTokenChars := [] },
        some (cString cached))
    else ({ s with cachedTokenChars := cached }, some [])

/-- `generateNextToken`. `none` is `nullptr`. -/
def generateNextToken (newTokenId : Token) (computed : Bool) (s : Session Token) :
    Session Token × Option (List UInt8) :=
  let s := s.shiftWhenFull
  if s.stopGenerationPosition.toInt ≤ s.currentPosition then (s, none)
  else
    match llamaDecode [(s.currentPosition, newTokenId)] computed s.memory with
    | none => (s, none)
    | some memory =>
      emitToken m newTokenId
        { s with
          memory
          currentPosition := s.currentPosition + 1
          system_le_current := Nat.le_succ_of_le s.system_le_current }

/-- What `unload` leaves of the globals. -/
def unload (s : Session Token) : Session Token := s.resetLongTermStates.resetShortTermStates

end Session

/-! ## The machine -/

/-- A call through JNI. -/
inductive Call (Token : Type*)
  | processSystemPrompt (systemPrompt : List UInt8) (computed : Nat → Bool)
  | processUserPrompt (userPrompt : List UInt8) (nPredict : Int32) (computed : Nat → Bool)
  | generateNextToken (newTokenId : Token) (computed : Bool)

/-- What a call returns. -/
inductive Returned
  | code (n : Nat)
  | text (result : Option (List UInt8))
deriving DecidableEq, Repr

variable (m : Model Token)

def callStep (s : Session Token) : Call Token → Session Token × Returned
  | .processSystemPrompt prompt computed =>
    let (s, n) := s.processSystemPrompt m prompt computed
    (s, .code n)
  | .processUserPrompt prompt nPredict computed =>
    let (s, n) := s.processUserPrompt m prompt nPredict computed
    (s, .code n)
  | .generateNextToken token computed =>
    let (s, result) := s.generateNextToken m token computed
    (s, .text result)

/-- The session as a machine: the engine may make any call at any time. -/
def sessionMachine : Machine (Session Token) (Call Token) where
  step s call := some (callStep m s call).1

end Kaede.AiChat
