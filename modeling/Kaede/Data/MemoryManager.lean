import Kaede.Ai.PersonalityManager
import Kaede.Infra.Window

/-!
# `MemoryManager`

The short-term conversation buffer.

Each turn carries a ghost tag of an arbitrary type `γ`. The code has no such field. Every function
here is polymorphic in `γ`, so none of them can look at it. It lets a proof say which turn of the
conversation an entry of the buffer stands for.
-/

namespace Kaede

open Infra

structure ConversationTurn (γ : Type) where
  content : Text
  isUser : Bool
  mood : Mood
  timestamp : Int
  /-- Ghost. -/
  tag : γ
deriving DecidableEq, Repr

structure MemoryManager (γ : Type) where
  conversationBuffer : List (ConversationTurn γ)
  sessionMessageCount : BitVec 32
  sessionStartTime : Int
deriving DecidableEq, Repr

structure SessionStats where
  messageCount : BitVec 32
  bufferCount : Nat
  sessionDurationMs : Int
  startTime : Int
deriving DecidableEq, Repr

namespace MemoryManager

variable {γ : Type}

def maxBufferSize : Nat := 10

/-- A new manager, constructed at time `now`. -/
def init (now : Int) : MemoryManager γ :=
  { conversationBuffer := [], sessionMessageCount := 0, sessionStartTime := now }

/-! ## Recording -/

/-- `addToBuffer(message, isUser = true, mood = Mood.NORMAL)` at time `now`. -/
def addToBuffer (now : Int) (tag : γ) (message : Text) (mm : MemoryManager γ)
    (isUser : Bool := true) (mood : Mood := .normal) : MemoryManager γ :=
  let turn : ConversationTurn γ :=
    { content := message, isUser := isUser, mood := mood, timestamp := now, tag := tag }
  let buffer :=
    if maxBufferSize ≤ mm.conversationBuffer.length then mm.conversationBuffer.tail
    else mm.conversationBuffer
  { mm with
    conversationBuffer := buffer ++ [turn]
    sessionMessageCount := mm.sessionMessageCount + 1 }

def clearBuffer (now : Int) (_mm : MemoryManager γ) : MemoryManager γ :=
  { conversationBuffer := [], sessionMessageCount := 0, sessionStartTime := now }

def resetSession (now : Int) (mm : MemoryManager γ) : MemoryManager γ :=
  { mm.clearBuffer now with sessionStartTime := now }

/-! ## Reading -/

/-- One line of the history that the prompt shows. -/
def historyLine (turn : ConversationTurn γ) : Text :=
  if turn.isUser then utf16 "User: " ++ turn.content else utf16 "Kaede: " ++ turn.content

def getConversationHistory (mm : MemoryManager γ) : List Text :=
  mm.conversationBuffer.map historyLine

def getConversationTurns (mm : MemoryManager γ) : List (ConversationTurn γ) :=
  mm.conversationBuffer

def getLastTurns (count : Nat) (mm : MemoryManager γ) : List (ConversationTurn γ) :=
  mm.conversationBuffer.rtake count

def getLastUserMessage (mm : MemoryManager γ) : Option Text :=
  ((mm.conversationBuffer.filter (·.isUser)).getLast?).map (·.content)

def getLastKaedeResponse (mm : MemoryManager γ) : Option Text :=
  ((mm.conversationBuffer.filter fun turn => !turn.isUser).getLast?).map (·.content)

/-- `content.contains(topic, ignoreCase = true)`. Two units are equal up to case when `foldCase`
takes them to the same unit. -/
def mentions (foldCase : CodeUnit → CodeUnit) (topic : Text) (turn : ConversationTurn γ) : Bool :=
  contains (turn.content.map foldCase) (topic.map foldCase)

def containsTopic (foldCase : CodeUnit → CodeUnit) (topic : Text) (mm : MemoryManager γ) : Bool :=
  mm.conversationBuffer.any (mentions foldCase topic)

def getMessagesAboutTopic (foldCase : CodeUnit → CodeUnit) (topic : Text) (mm : MemoryManager γ) :
    List (ConversationTurn γ) :=
  mm.conversationBuffer.filter (mentions foldCase topic)

def getSessionStats (now : Int) (mm : MemoryManager γ) : SessionStats :=
  { messageCount := mm.sessionMessageCount, bufferCount := mm.conversationBuffer.length,
    sessionDurationMs := now - mm.sessionStartTime, startTime := mm.sessionStartTime }

/-! ## Long-term storage -/

/-- Importance threshold for automatic long-term storage. -/
def autoSaveThreshold : Int := 7

def personalKeywords : List String :=
  ["my name is", "call me", "i am", "i'm", "i live", "i work", "i study", "i like", "i love",
    "i hate", "my favorite"]

def shouldSaveToLongTerm (message : Text) (importanceScore : Int) : Bool :=
  if autoSaveThreshold ≤ importanceScore then true
  else
    let lowerMessage := lowercase message
    personalKeywords.any fun keyword => contains lowerMessage (utf16 keyword)

/-! ## The buffer is a bounded window -/

theorem addToBuffer_buffer (now : Int) (tag : γ) (message : Text) (mm : MemoryManager γ)
    (isUser : Bool) (mood : Mood) :
    (mm.addToBuffer now tag message isUser mood).conversationBuffer =
      pushBounded maxBufferSize ⟨message, isUser, mood, now, tag⟩ mm.conversationBuffer := rfl

@[simp] theorem clearBuffer_buffer (now : Int) (mm : MemoryManager γ) :
    (mm.clearBuffer now).conversationBuffer = [] := rfl

/-- Adding a turn to the last ten of a list gives the last ten of the longer list. -/
theorem addToBuffer_window {now : Int} {tag : γ} {message : Text} {mm : MemoryManager γ}
    {isUser : Bool} {mood : Mood} {turns : List (ConversationTurn γ)}
    (h : mm.conversationBuffer = turns.rtake maxBufferSize) :
    (mm.addToBuffer now tag message isUser mood).conversationBuffer =
      (turns ++ [(⟨message, isUser, mood, now, tag⟩ : ConversationTurn γ)]).rtake maxBufferSize := by
  rw [addToBuffer_buffer, h, rtake_concat_eq_pushBounded (by decide)]

end MemoryManager

end Kaede
