import Kaede.Data.MemoryManager

/-!
# The conversation buffer is a sliding window

The unbounded log holds every turn since the last clear. The buffer is the end of it, and nothing
that reads the buffer can tell more.

* `log_concat` — the log after one more call
* `showsWindow_of_calls` — every observer answers for the last ten turns of the log
-/

namespace Kaede.MemoryManager

open Infra

variable {γ : Type}

/-! ## Calls and the log -/

/-- The calls that change the buffer, each with the time at which it reads the clock. -/
inductive Call (γ : Type) where
  | addToBuffer (now : Int) (tag : γ) (message : Text) (isUser : Bool) (mood : Mood)
  | clearBuffer (now : Int)
  | resetSession (now : Int)
deriving DecidableEq, Repr

def call (mm : MemoryManager γ) : Call γ → MemoryManager γ
  | .addToBuffer now tag message isUser mood => mm.addToBuffer now tag message isUser mood
  | .clearBuffer now => mm.clearBuffer now
  | .resetSession now => mm.resetSession now

/-- The turn that a call adds. The other calls clear the buffer. -/
def Call.turn : Call γ → Option (ConversationTurn γ)
  | .addToBuffer now tag message isUser mood => some ⟨message, isUser, mood, now, tag⟩
  | .clearBuffer _ => none
  | .resetSession _ => none

/-- Every turn since the last clear. -/
def log (calls : List (Call γ)) : List (ConversationTurn γ) := sinceReset Call.turn calls

theorem log_concat (calls : List (Call γ)) (c : Call γ) :
    log (calls ++ [c]) = c.turn.elim [] fun turn => log calls ++ [turn] :=
  sinceReset_concat Call.turn calls c

/-! ## One call -/

/-- The buffer is the end of the log, and the session counts the turns of the log. -/
structure Refines (turns : List (ConversationTurn γ)) (mm : MemoryManager γ) : Prop where
  buffer : mm.conversationBuffer = turns.rtake maxBufferSize
  count : mm.sessionMessageCount = BitVec.ofNat 32 turns.length

theorem refines_init (start : Int) : Refines [] (init start : MemoryManager γ) := ⟨rfl, rfl⟩

theorem refines_call {calls : List (Call γ)} {mm : MemoryManager γ} (h : Refines (log calls) mm)
    (c : Call γ) : Refines (log (calls ++ [c])) (mm.call c) := by
  rw [log_concat]
  cases c with
  | addToBuffer now tag message isUser mood =>
    refine ⟨addToBuffer_window h.buffer, ?_⟩
    have hcount : (mm.addToBuffer now tag message isUser mood).sessionMessageCount =
        mm.sessionMessageCount + 1 := rfl
    simp only [call, Call.turn, hcount, h.count, Option.elim_some, List.length_append,
      List.length_singleton]
    exact (BitVec.ofNat_add _ _).symm
  | clearBuffer now => exact ⟨rfl, rfl⟩
  | resetSession now => exact ⟨rfl, rfl⟩

theorem refines_of_calls (start : Int) (calls : List (Call γ)) :
    Refines (log calls) (calls.foldl call (init start)) := by
  induction calls using List.reverseRecOn with
  | nil => exact refines_init start
  | append_singleton calls c ih =>
    rw [List.foldl_append, List.foldl_cons, List.foldl_nil]
    exact refines_call ih c

/-! ## What can be observed -/

/-- Every observer answers for these turns. -/
structure Shows (window : List (ConversationTurn γ)) (mm : MemoryManager γ) : Prop where
  history : mm.getConversationHistory = window.map historyLine
  turns : mm.getConversationTurns = window
  lastTurns : ∀ count, mm.getLastTurns count = window.rtake count
  lastUser : mm.getLastUserMessage = (window.reverse.find? (·.isUser)).map (·.content)
  lastKaede : mm.getLastKaedeResponse = (window.reverse.find? (!·.isUser)).map (·.content)
  topic : ∀ foldCase topic,
    mm.containsTopic foldCase topic = true ↔ ∃ turn ∈ window, mentions foldCase topic turn
  aboutTopic : ∀ foldCase topic,
    mm.getMessagesAboutTopic foldCase topic = window.filter (mentions foldCase topic)

theorem shows_of_buffer {window : List (ConversationTurn γ)} {mm : MemoryManager γ}
    (h : mm.conversationBuffer = window) : Shows window mm where
  history := by rw [getConversationHistory, h]
  turns := h
  lastTurns count := by rw [getLastTurns, h]
  lastUser := by rw [getLastUserMessage, h, getLast?_filter]
  lastKaede := by rw [getLastKaedeResponse, h, getLast?_filter]
  topic foldCase topic := by rw [containsTopic, h, List.any_eq_true]
  aboutTopic foldCase topic := by rw [getMessagesAboutTopic, h]

theorem toInt_ofNat_of_lt {k : Nat} (h : k < 2 ^ 31) : (BitVec.ofNat 32 k).toInt = k := by
  have hmod : k % 2 ^ 32 = k := Nat.mod_eq_of_lt (by omega)
  rw [BitVec.toInt_eq_toNat_of_lt (by rw [BitVec.toNat_ofNat, hmod]; omega), BitVec.toNat_ofNat,
    hmod]

/--
**The buffer is a sliding window over the log.**

After any calls, the buffer holds the last ten turns since the last clear, or all of them if there
are fewer, and every observer answers for exactly these turns. The statistics count all turns.
-/
theorem showsWindow_of_calls (start now : Int) (calls : List (Call γ)) :
    let mm := calls.foldl call (init start)
    let k := (log calls).length
    mm.conversationBuffer = (log calls).drop (k - min 10 k) ∧
      Shows ((log calls).rtake 10) mm ∧
      (mm.getSessionStats now).bufferCount = min 10 k ∧
      (k < 2 ^ 31 → (mm.getSessionStats now).messageCount.toInt = k) := by
  intro mm k
  have h : Refines (log calls) mm := refines_of_calls start calls
  have hbuffer : mm.conversationBuffer = (log calls).rtake 10 := h.buffer
  refine ⟨?_, shows_of_buffer hbuffer, ?_, fun hk => ?_⟩
  · rw [hbuffer, List.rtake]
    congr 1
    omega
  · rw [getSessionStats, hbuffer, length_rtake]
  · rw [getSessionStats, h.count]
    exact toInt_ofNat_of_lt hk

/-- Twelve turns after a clear, each tagged with its number. -/
def twelveTurns : List (Call Nat) :=
  .clearBuffer 0 :: (List.range 12).map fun (i : Nat) => .addToBuffer i i [] true .normal

theorem showsWindow_of_calls_twelve :
    (twelveTurns.foldl call (init 0)).conversationBuffer.map (·.tag) = List.range' 2 10 ∧
      ((twelveTurns.foldl call (init 0)).getSessionStats 20).messageCount.toInt = 12 := by
  have hlog : (log twelveTurns).length = 12 := by decide
  obtain ⟨hbuffer, -, -, hcount⟩ := showsWindow_of_calls 0 20 twelveTurns
  refine ⟨?_, ?_⟩
  · rw [hbuffer, hlog]
    decide
  · rw [hcount (by rw [hlog]; decide), hlog]
    rfl

end Kaede.MemoryManager
