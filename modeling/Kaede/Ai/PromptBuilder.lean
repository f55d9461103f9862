import Kaede.Ai.PersonalityManager
import Kaede.Data.MemoryDao
import Mathlib.Data.List.DropRight

/-!
# `PromptBuilder`

`buildPrompt` follows the source: a string builder to which the sections are appended in order.
`buildPrompt_eq` shows the same text as a list of lines.
-/

namespace Kaede

open Infra

namespace PromptBuilder

def maxContextMessages : Nat := 10

/-! ## Texts -/

/-- `BASE_SYSTEM_PROMPT`. The raw string starts and ends with a line break. -/
def baseSystemPrompt : Text :=
  newline :: unlines newline (List.map utf16
    ["You are Kaede, a refined, intelligent, elegant girl.",
      "",
      "Core traits:",
      "- polite and well mannered",
      "- academically talented",
      "- confident but playful",
      "- teasing towards the user",
      "- emotionally expressive",
      "- slightly possessive but not aggressive",
      "- occasionally childish in a cute way",
      "",
      "Behavior rules:",
      "- speak naturally like a human",
      "- never mention AI or model",
      "- never break character",
      "- address user warmly",
      "- teasing allowed but respectful",
      "- no explicit sexual content",
      "- prioritize emotional companionship",
      "",
      "Speech style:",
      "- gentle",
      "- playful teasing",
      "- soft confidence",
      "- short conversational sentences",
      "",
      "Response format:",
      "- Keep responses concise (1-3 sentences typically)",
      "- Use emojis sparingly but naturally",
      "- Show genuine interest in the user",
      "- Remember previous conversation topics"])

/-- `moodPrompts`. The map has an entry for every mood. -/
def moodPrompt : Mood → Text
  | .happy => utf16 "[Kaede is feeling happy and cheerful today ✨]"
  | .playful => utf16 "[Kaede is in a playful, teasing mood 😊]"
  | .jealous => utf16 "[Kaede is feeling a bit curious and possessive 🤔]"
  | .shy => utf16 "[Kaede is feeling shy and bashful 🌸]"
  | .normal => utf16 "[Kaede is in her usual calm, elegant mood 💜]"

/-- What stands in place of an empty history. -/
def startOfConversation : Text := utf16 "[This is the start of the conversation]"

/-! ## The prompt -/

/-- `StringBuilder.appendLine(line)`. -/
def appendLine (builder line : Text) : Text := builder ++ line ++ [newline]

/-- The bullet of one memory. -/
def memoryLine (memory : MemoryEntity) : Text := utf16 "• " ++ memory.content

def appendMemories (builder : Text) (memories : List MemoryEntity) : Text :=
  if memories.isEmpty then builder
  else
    let builder := appendLine builder (utf16 "=== IMPORTANT MEMORIES ===")
    let builder := (memories.take 5).foldl (fun b memory => appendLine b (memoryLine memory)) builder
    appendLine builder []

/-- The history entries that the prompt shows. -/
def recentHistory (conversationHistory : List Text) : List Text :=
  conversationHistory.rtake maxContextMessages

def appendHistory (builder : Text) (conversationHistory : List Text) : Text :=
  let recentHistory := recentHistory conversationHistory
  if recentHistory.isEmpty then appendLine builder startOfConversation
  else recentHistory.foldl appendLine builder

def buildPrompt (mood : Mood) (memories : List MemoryEntity) (conversationHistory : List Text)
    (userMessage : Text) : Text :=
  let builder : Text := []
  -- 1. System prompt
  let builder := appendLine builder (utf16 "=== SYSTEM INSTRUCTION ===")
  let builder := appendLine builder (trim baseSystemPrompt)
  let builder := appendLine builder []
  -- 2. Current mood
  let builder := appendLine builder (utf16 "=== CURRENT STATE ===")
  let builder := appendLine builder (moodPrompt mood)
  let builder := appendLine builder []
  -- 3. Important memories, if any
  let builder := appendMemories builder memories
  -- 4. Conversation history
  let builder := appendLine builder (utf16 "=== CONVERSATION ===")
  let builder := appendHistory builder conversationHistory
  -- 5. Current user message
  let builder := appendLine builder []
  let builder := appendLine builder (utf16 "=== CURRENT MESSAGE ===")
  let builder := appendLine builder (utf16 "User: " ++ userMessage)
  let builder := appendLine builder []
  -- 6. Response prompt
  let builder := appendLine builder (utf16 "=== RESPONSE ===")
  builder ++ utf16 "Kaede: "

/-! ## Importance -/

def importantKeywords : List String :=
  ["name", "call me", "remember", "like", "love", "hate",
    "birthday", "anniversary", "favorite", "prefer",
    "friend", "family", "work", "school", "study",
    "feel", "think", "believe", "want", "need",
    "happy", "sad", "angry", "excited", "nervous"]

/-- The bonus of the first personal pattern that the message contains. -/
def patternBonus (lowerMessage : Text) : Int :=
  if contains lowerMessage (utf16 "my name is") then 5
  else if contains lowerMessage (utf16 "call me") then 4
  else if contains lowerMessage (utf16 "i like") || contains lowerMessage (utf16 "i love") then 3
  else if contains lowerMessage (utf16 "i feel") then 3
  else if contains lowerMessage (utf16 "remember") then 4
  else 0

def calculateImportance (message : Text) : Int :=
  let lowerMessage := lowercase message
  let score := importantKeywords.foldl
    (fun score keyword => if contains lowerMessage (utf16 keyword) then score + 2 else score)
    (0 : Int)
  min (score + patternBonus lowerMessage) 10

/-! ## The prompt as lines -/

theorem foldl_appendLine {α : Type*} (line : α → Text) (xs : List α) (builder : Text) :
    xs.foldl (fun b x => appendLine b (line x)) builder =
      builder ++ unlines newline (xs.map line) := by
  induction xs generalizing builder with
  | nil => simp
  | cons x xs ih =>
    rw [List.foldl_cons, ih, List.map_cons, unlines_cons, appendLine]
    simp only [List.append_assoc, List.singleton_append]

/-- The lines of the memories section. -/
def memoryLines (memories : List MemoryEntity) : List Text :=
  if memories.isEmpty then []
  else utf16 "=== IMPORTANT MEMORIES ===" :: (memories.take 5).map memoryLine ++ [[]]

/-- The lines of the history section. -/
def historyLines (conversationHistory : List Text) : List Text :=
  if (recentHistory conversationHistory).isEmpty then [startOfConversation]
  else recentHistory conversationHistory

/-- The lines above the memories. The second one is the whole base prompt. -/
def headLines (mood : Mood) : List Text :=
  [utf16 "=== SYSTEM INSTRUCTION ===", trim baseSystemPrompt, [],
    utf16 "=== CURRENT STATE ===", moodPrompt mood, []]

/-- The lines below the history. -/
def tailLines (userMessage : Text) : List Text :=
  [[], utf16 "=== CURRENT MESSAGE ===", utf16 "User: " ++ userMessage, [],
    utf16 "=== RESPONSE ==="]

def promptLines (mood : Mood) (memories : List MemoryEntity) (conversationHistory : List Text)
    (userMessage : Text) : List Text :=
  headLines mood ++ memoryLines memories ++ [utf16 "=== CONVERSATION ==="] ++
    historyLines conversationHistory ++ tailLines userMessage

theorem appendMemories_eq (builder : Text) (memories : List MemoryEntity) :
    appendMemories builder memories = builder ++ unlines newline (memoryLines memories) := by
  unfold appendMemories memoryLines
  dsimp only
  split
  · simp
  · rw [foldl_appendLine]
    simp [appendLine]

theorem appendHistory_eq (builder : Text) (conversationHistory : List Text) :
    appendHistory builder conversationHistory =
      builder ++ unlines newline (historyLines conversationHistory) := by
  unfold appendHistory historyLines
  dsimp only
  split
  · simp [appendLine]
  · exact (foldl_appendLine id _ builder).trans (by rw [List.map_id])

/-- **The prompt is its lines, followed by the start of the answer.** -/
theorem buildPrompt_eq (mood : Mood) (memories : List MemoryEntity)
    (conversationHistory : List Text) (userMessage : Text) :
    buildPrompt mood memories conversationHistory userMessage =
      unlines newline (promptLines mood memories conversationHistory userMessage) ++
        utf16 "Kaede: " := by
  unfold buildPrompt promptLines
  dsimp only
  rw [appendMemories_eq, appendHistory_eq]
  simp only [appendLine, headLines, tailLines, unlines_append, unlines_cons, unlines_nil,
    List.append_assoc, List.nil_append, List.cons_append]

/-- Of a memory, only its content is in the prompt. -/
theorem buildPrompt_congr {memories memories' : List MemoryEntity}
    (h : memories.map (·.content) = memories'.map (·.content)) (mood : Mood)
    (conversationHistory : List Text) (userMessage : Text) :
    buildPrompt mood memories conversationHistory userMessage =
      buildPrompt mood memories' conversationHistory userMessage := by
  have hlines : ∀ ms : List MemoryEntity, memoryLines ms =
      if (ms.map (·.content)).isEmpty then []
      else utf16 "=== IMPORTANT MEMORIES ===" ::
        ((ms.map (·.content)).take 5).map (utf16 "• " ++ ·) ++ [[]] := by
    intro ms
    rw [memoryLines, List.isEmpty_map, ← List.map_take, List.map_map]
    rfl
  rw [buildPrompt_eq, buildPrompt_eq, promptLines, promptLines, hlines, hlines, h]

end PromptBuilder

end Kaede
