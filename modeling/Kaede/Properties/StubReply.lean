import Kaede.Ai.MlcLlm
import Kaede.Ai.PromptBuilder

/-!
# What the stub finds in a prompt

`ChatViewModel` hands the stub the whole prompt, where `generateSmartResponse` expects the user
message. The stub then searches the fixed text, the mood line, the memories and the history as
well.

Proved in three steps.

1. A phrase occurs in a prompt exactly when it occurs in the fixed lines, the mood line, one of the
   context texts, or the user message (`occurs_buildPrompt_iff`). No occurrence runs across two of
   them.
2. Which phrases the fixed text itself contains is computed once.
3. The cascade on the prompt is compared with the cascade on the message
   (`smartReply_buildPrompt_iff`).
-/

namespace Kaede

open Infra PromptBuilder SmartStub

/-! ## Searches that read a prompt piece by piece -/

/-- A rewriting of a text before it is searched that goes unit by unit and keeps the line
structure of a prompt. -/
structure LineSearch (f : Text → Text) : Prop where
  append : ∀ a b, f (a ++ b) = f a ++ f b
  lineBreak : f [newline] = [newline]
  bullet : f (utf16 "• ") = [0x2022, space]
  user : f (utf16 "User: ") = utf16 "user" ++ [0x3A, space]

/-- What `contains(word)` searches after `lowercase()`. -/
theorem lineSearch_lowercase : LineSearch lowercase where
  append := lowercase_append
  lineBreak := by decide
  bullet := by decide +kernel
  user := by decide +kernel

/-- What `contains(word, ignoreCase = true)` searches after `lowercase()`. -/
def foldedLowercase (s : Text) : Text := (lowercase s).map foldUnit

theorem lineSearch_foldedLowercase : LineSearch foldedLowercase where
  append a b := by rw [foldedLowercase, lowercase_append, List.map_append]; rfl
  lineBreak := by decide
  bullet := by decide +kernel
  user := by decide +kernel

/-- The lines that every prompt contains. The base prompt is one of them. -/
def frameLines : List Text :=
  [utf16 "=== SYSTEM INSTRUCTION ===", trim baseSystemPrompt, [], utf16 "=== CURRENT STATE ===",
    utf16 "=== CONVERSATION ===", utf16 "=== CURRENT MESSAGE ===", utf16 "=== RESPONSE ==="]

/-- The lines that depend on whether there are memories and history, and the last word of the
prompt. -/
def optionalLines : List Text :=
  [utf16 "=== IMPORTANT MEMORIES ===", startOfConversation, utf16 "Kaede: "]

/-- The texts that reach the prompt besides the message: contents of the first five memories and
the last ten history entries. -/
def contextTexts (memories : List MemoryEntity) (conversationHistory : List Text) : List Text :=
  (memories.take 5).map (·.content) ++ recentHistory conversationHistory

/-- A phrase whose occurrences cannot touch the punctuation around the pieces of a prompt, and
that the optional lines do not contain. -/
def Isolated (f : Text → Text) (phrase : Text) : Prop :=
  phrase ≠ [] ∧ newline ∉ phrase ∧ 0x3A ∉ phrase ∧ phrase.head? ≠ some 0x2022 ∧
    phrase.head? ≠ some space ∧ ¬ phrase <:+: utf16 "user" ∧
    ∀ line ∈ optionalLines, ¬ phrase <:+: f line

instance (f : Text → Text) (phrase : Text) : Decidable (Isolated f phrase) := by
  unfold Isolated; infer_instance

section Occurrences

variable {f : Text → Text} {phrase : Text}

theorem LineSearch.map_nil (hf : LineSearch f) : f [] = [] := by
  have h := hf.append [] []
  rw [List.append_nil] at h
  exact List.append_cancel_left (by rw [List.append_nil]; exact h.symm)

theorem LineSearch.map_unlines (hf : LineSearch f) (lines : List Text) :
    f (unlines newline lines) = unlines newline (lines.map f) := by
  induction lines with
  | nil => exact hf.map_nil
  | cons l ls ih =>
    rw [unlines_cons, List.map_cons, unlines_cons, hf.append, ← List.singleton_append, hf.append,
      hf.lineBreak, ih, List.singleton_append]

/-- The bullet in front of a memory takes no part in an occurrence. -/
theorem occurs_memoryLine_iff (hf : LineSearch f) (hp : Isolated f phrase)
    (memory : MemoryEntity) : phrase <:+: f (memoryLine memory) ↔ phrase <:+: f memory.content := by
  obtain ⟨hne, _, _, hbullet, hspace, _⟩ := hp
  rw [memoryLine, hf.append, hf.bullet, List.cons_append, List.cons_append, List.nil_append,
    infix_cons_of_head?_ne hne hbullet, infix_cons_of_head?_ne hne hspace]

/-- Neither does the label in front of the message. -/
theorem occurs_userLine_iff (hf : LineSearch f) (hp : Isolated f phrase) (userMessage : Text) :
    phrase <:+: f (utf16 "User: " ++ userMessage) ↔ phrase <:+: f userMessage := by
  obtain ⟨hne, _, hcolon, _, hspace, huser, _⟩ := hp
  rw [hf.append, hf.user, List.append_assoc, List.cons_append, List.singleton_append,
    infix_append_cons_iff hcolon, or_iff_right huser, infix_cons_of_head?_ne hne hspace]

theorem occurs_memoryLines_iff (hf : LineSearch f) (hp : Isolated f phrase)
    (memories : List MemoryEntity) :
    (∃ l ∈ memoryLines memories, phrase <:+: f l) ↔
      ∃ m ∈ memories.take 5, phrase <:+: f m.content := by
  have hheader := hp.2.2.2.2.2.2 (utf16 "=== IMPORTANT MEMORIES ===") (by simp [optionalLines])
  have hempty : ¬ phrase <:+: f [] := by
    rw [hf.map_nil, List.infix_nil]
    exact hp.1
  unfold memoryLines
  split
  · next h => rw [List.isEmpty_iff] at h; simp [h]
  · simp only [List.mem_append, List.mem_cons, List.mem_map, List.not_mem_nil, or_false, or_and_right,
      exists_or, exists_eq_left, hheader, hempty, false_or, exists_exists_and_eq_and,
      occurs_memoryLine_iff hf hp]

theorem occurs_historyLines_iff (hp : Isolated f phrase) (conversationHistory : List Text) :
    (∃ l ∈ historyLines conversationHistory, phrase <:+: f l) ↔
      ∃ l ∈ recentHistory conversationHistory, phrase <:+: f l := by
  have hmarker := hp.2.2.2.2.2.2 startOfConversation (by simp [optionalLines])
  unfold historyLines
  split
  · next h => rw [List.isEmpty_iff] at h; simp [h, hmarker]
  · rfl

/-- **A phrase occurs in a prompt exactly when it occurs in one of its pieces.** -/
theorem occurs_buildPrompt_iff (hf : LineSearch f) (hp : Isolated f phrase) (mood : Mood)
    (memories : List MemoryEntity) (conversationHistory : List Text) (userMessage : Text) :
    phrase <:+: f (buildPrompt mood memories conversationHistory userMessage) ↔
      (∃ l ∈ frameLines, phrase <:+: f l) ∨ phrase <:+: f (moodPrompt mood) ∨
        (∃ t ∈ contextTexts memories conversationHistory, phrase <:+: f t) ∨
        phrase <:+: f userMessage := by
  have hanswer := hp.2.2.2.2.2.2 (utf16 "Kaede: ") (by simp [optionalLines])
  have hempty : ¬ phrase <:+: f [] := by
    rw [hf.map_nil, List.infix_nil]
    exact hp.1
  have hlines : (∃ l ∈ promptLines mood memories conversationHistory userMessage,
      phrase <:+: f l) ↔
      (∃ l ∈ frameLines, phrase <:+: f l) ∨ phrase <:+: f (moodPrompt mood) ∨
        (∃ t ∈ contextTexts memories conversationHistory, phrase <:+: f t) ∨
        phrase <:+: f userMessage := by
    simp only [promptLines, contextTexts, List.mem_append, or_and_right, exists_or,
      occurs_memoryLines_iff hf hp, occurs_historyLines_iff hp, List.mem_map, frameLines,
      headLines, tailLines, List.mem_cons, exists_eq_left, List.not_mem_nil, or_false, hempty,
      false_or, occurs_userLine_iff hf hp, exists_exists_and_eq_and]
    -- both sides list the same pieces
    simp only [or_assoc, or_comm, or_left_comm]
  rw [buildPrompt_eq, hf.append, hf.map_unlines, infix_unlines_append_iff hp.2.1,
    or_iff_left hanswer, ← hlines]
  simp only [List.mem_map, exists_exists_and_eq_and]

end Occurrences

/-! ## What the fixed text contains -/

/-- The phrases that `containsAny` looks for before the questions. -/
def categoryPhrases : List String := affectionPhrases ++ sadnessPhrases ++ happinessPhrases

/-- The questions that have an answer of their own. -/
def answeredQuestions : List String := ["your name", "how are you", "what can you do"]

theorem isolated_categoryPhrases :
    ∀ p ∈ categoryPhrases ++ questionPhrases,
      Isolated foldedLowercase ((utf16 p).map foldUnit) := by
  decide +kernel

theorem isolated_answeredQuestions :
    ∀ p ∈ answeredQuestions, Isolated lowercase (utf16 p) := by
  decide +kernel

/-- All searches of the fixed lines at once: they are long, and are evaluated only here. -/
theorem frameLines_searches :
    (∀ l ∈ frameLines, ∀ p ∈ categoryPhrases,
        containsIgnoreCase (lowercase l) (utf16 p) = false) ∧
      (∀ l ∈ frameLines, ∀ p ∈ answeredQuestions,
        contains (lowercase l) (utf16 p) = false) ∧
      ∃ l ∈ frameLines, containsAny (lowercase l) ["how"] = true := by
  decide +kernel

/-- No fixed line names a feeling. -/
theorem frameLines_categoryPhrases :
    ∀ l ∈ frameLines, ∀ p ∈ categoryPhrases,
      containsIgnoreCase (lowercase l) (utf16 p) = false :=
  frameLines_searches.1

theorem frameLines_answeredQuestions :
    ∀ l ∈ frameLines, ∀ p ∈ answeredQuestions, contains (lowercase l) (utf16 p) = false :=
  frameLines_searches.2.1

/-- The base prompt says "Show genuine interest", and that contains "how". -/
theorem frameLines_question :
    ∃ l ∈ frameLines, containsAny (lowercase l) ["how"] = true :=
  frameLines_searches.2.2

/-- Of all moods and categories, only the happy mood names its own. -/
theorem moodPrompt_categories (mood : Mood) :
    containsAny (lowercase (moodPrompt mood)) affectionPhrases = false ∧
      containsAny (lowercase (moodPrompt mood)) sadnessPhrases = false ∧
      containsAny (lowercase (moodPrompt mood)) happinessPhrases = decide (mood = .happy) := by
  cases mood <;> decide +kernel

theorem moodPrompt_answeredQuestions (mood : Mood) :
    ∀ p ∈ answeredQuestions, contains (lowercase (moodPrompt mood)) (utf16 p) = false := by
  cases mood <;> decide +kernel

/-! ## The tests of the cascade on a prompt -/

/-- One of the texts contains one of the phrases. -/
def ContextContainsAny (context : List Text) (phrases : List String) : Prop :=
  ∃ t ∈ context, containsAny (lowercase t) phrases = true

/-- One of the texts contains the phrase. -/
def ContextContains (context : List Text) (phrase : String) : Prop :=
  ∃ t ∈ context, contains (lowercase t) (utf16 phrase) = true

instance (context : List Text) (phrases : List String) :
    Decidable (ContextContainsAny context phrases) := by
  unfold ContextContainsAny; infer_instance

instance (context : List Text) (phrase : String) : Decidable (ContextContains context phrase) := by
  unfold ContextContains; infer_instance

theorem containsAny_lowercase_iff {s : Text} {phrases : List String} :
    containsAny (lowercase s) phrases = true ↔
      ∃ p ∈ phrases, (utf16 p).map foldUnit <:+: foldedLowercase s := by
  simp only [containsAny, List.any_eq_true, containsIgnoreCase, contains_iff, foldedLowercase]

section Tests

variable (mood : Mood) (memories : List MemoryEntity) (conversationHistory : List Text)
  (userMessage : Text)

/-- `containsAny` on a prompt, piece by piece. -/
theorem containsAny_buildPrompt_iff {phrases : List String}
    (hp : ∀ p ∈ phrases, Isolated foldedLowercase ((utf16 p).map foldUnit)) :
    containsAny (lowercase (buildPrompt mood memories conversationHistory userMessage)) phrases =
        true ↔
      (∃ l ∈ frameLines, containsAny (lowercase l) phrases = true) ∨
        containsAny (lowercase (moodPrompt mood)) phrases = true ∨
        ContextContainsAny (contextTexts memories conversationHistory) phrases ∨
        containsAny (lowercase userMessage) phrases = true := by
  simp only [ContextContainsAny, containsAny_lowercase_iff]
  constructor
  · rintro ⟨p, hmem, h⟩
    rw [occurs_buildPrompt_iff lineSearch_foldedLowercase (hp p hmem)] at h
    rcases h with ⟨l, hl, h⟩ | h | ⟨t, ht, h⟩ | h
    · exact Or.inl ⟨l, hl, p, hmem, h⟩
    · exact Or.inr (Or.inl ⟨p, hmem, h⟩)
    · exact Or.inr (Or.inr (Or.inl ⟨t, ht, p, hmem, h⟩))
    · exact Or.inr (Or.inr (Or.inr ⟨p, hmem, h⟩))
  · intro h
    have hiff := fun p hmem => occurs_buildPrompt_iff lineSearch_foldedLowercase (hp p hmem) mood
      memories conversationHistory userMessage
    rcases h with ⟨l, hl, p, hmem, h⟩ | ⟨p, hmem, h⟩ | ⟨t, ht, p, hmem, h⟩ | ⟨p, hmem, h⟩
    · exact ⟨p, hmem, (hiff p hmem).mpr (Or.inl ⟨l, hl, h⟩)⟩
    · exact ⟨p, hmem, (hiff p hmem).mpr (Or.inr (Or.inl h))⟩
    · exact ⟨p, hmem, (hiff p hmem).mpr (Or.inr (Or.inr (Or.inl ⟨t, ht, h⟩)))⟩
    · exact ⟨p, hmem, (hiff p hmem).mpr (Or.inr (Or.inr (Or.inr h)))⟩

/-- A category is found in the mood line, in the context or in the message. -/
theorem category_buildPrompt_iff (phrases : List String) (hp : phrases ⊆ categoryPhrases) :
    containsAny (lowercase (buildPrompt mood memories conversationHistory userMessage)) phrases =
        true ↔
      (containsAny (lowercase (moodPrompt mood)) phrases = true ∨
        ContextContainsAny (contextTexts memories conversationHistory) phrases) ∨
        containsAny (lowercase userMessage) phrases = true := by
  have hframe : ¬ ∃ l ∈ frameLines, containsAny (lowercase l) phrases = true := by
    rintro ⟨l, hl, h⟩
    obtain ⟨p, hmem, h⟩ := List.any_eq_true.mp h
    rw [frameLines_categoryPhrases l hl p (hp hmem)] at h
    cases h
  rw [containsAny_buildPrompt_iff mood memories conversationHistory userMessage fun p hmem =>
    isolated_categoryPhrases p (List.mem_append_left _ (hp hmem)), or_iff_right hframe, or_assoc]

/-- Every prompt passes for a question. -/
theorem question_buildPrompt :
    containsAny (lowercase (buildPrompt mood memories conversationHistory userMessage))
      questionPhrases = true := by
  rw [containsAny_buildPrompt_iff mood memories conversationHistory userMessage fun p hmem =>
    isolated_categoryPhrases p (List.mem_append_right _ hmem)]
  obtain ⟨l, hl, h⟩ := frameLines_question
  refine Or.inl ⟨l, hl, ?_⟩
  obtain ⟨p, hmem, h⟩ := List.any_eq_true.mp h
  rw [List.mem_singleton] at hmem
  exact List.any_eq_true.mpr ⟨p, by rw [hmem]; decide, h⟩

/-- An answered question is found in the context or in the message. -/
theorem answeredQuestion_buildPrompt_iff (p : String) (hp : p ∈ answeredQuestions) :
    contains (lowercase (buildPrompt mood memories conversationHistory userMessage)) (utf16 p) =
        true ↔
      ContextContains (contextTexts memories conversationHistory) p ∨
        contains (lowercase userMessage) (utf16 p) = true := by
  have hframe : ¬ ∃ l ∈ frameLines, utf16 p <:+: lowercase l := by
    rintro ⟨l, hl, h⟩
    rw [← contains_iff, frameLines_answeredQuestions l hl p hp] at h
    cases h
  have hmood : ¬ utf16 p <:+: lowercase (moodPrompt mood) := by
    rw [← contains_iff, moodPrompt_answeredQuestions mood p hp]
    exact Bool.false_ne_true
  simp only [ContextContains, contains_iff]
  rw [occurs_buildPrompt_iff lineSearch_lowercase (isolated_answeredQuestions p hp),
    or_iff_right hframe, or_iff_right hmood]

/-- No prompt passes for a greeting: it starts with an equals sign. -/
theorem matchesGreeting_buildPrompt :
    matchesGreeting (lowercase (buildPrompt mood memories conversationHistory userMessage)) =
      false := by
  have hstart : utf16 "=== SYSTEM INSTRUCTION ===" =
      0x3D :: utf16 "== SYSTEM INSTRUCTION ===" := by decide +kernel
  have hwords : ∀ word ∈ greetingWords, (utf16 word).head? = some 0x68 := by decide
  rw [buildPrompt_eq, promptLines, headLines, hstart]
  unfold matchesGreeting
  rw [List.any_eq_false]
  intro word hword h
  obtain ⟨ys, hys⟩ := List.head?_eq_some_iff.mp (hwords word hword)
  rw [hys] at h
  simp [lowerUnit] at h

end Tests

/-! ## The cascade -/

/-- A first match that also looks at the context agrees with one that does not when the message
itself matches, or when the context does not match and the rests agree. -/
theorem firstMatch_eq_iff {p c u : Prop} [Decidable p] [Decidable u] {r x y : SmartReply}
    (hp : p ↔ c ∨ u) (hy : y ≠ r) :
    (if p then r else x) = (if u then r else y) ↔ u ∨ ¬ c ∧ x = y := by
  by_cases hu : u
  · rw [if_pos (hp.mpr (Or.inr hu)), if_pos hu]
    exact ⟨fun _ => Or.inl hu, fun _ => rfl⟩
  · rw [if_neg hu, or_iff_right hu]
    by_cases hc : c
    · rw [if_pos (hp.mpr (Or.inl hc))]
      exact ⟨fun h => absurd h.symm hy, fun h => absurd hc h.1⟩
    · rw [if_neg fun h => (hp.mp h).elim hc hu]
      exact ⟨fun h => ⟨hc, h⟩, fun h => h.2⟩

/-- The greeting and its time-of-day variants. -/
def SmartReply.isGreeting : SmartReply → Bool
  | .morning | .afternoon | .evening | .night | .greeting => true
  | _ => false

theorem isGreeting_smartReply (s : Text) :
    (smartReply s).isGreeting = matchesGreeting (lowercase s) := by
  unfold smartReply
  dsimp only
  cases matchesGreeting (lowercase s) with
  | true =>
    rw [if_pos rfl]
    unfold greetingReply
    split_ifs <;> rfl
  | false =>
    rw [if_neg Bool.false_ne_true]
    unfold questionReply
    split_ifs <;> rfl

/-- The `when` of the questions returns none of the replies outside it. -/
theorem questionReply_ne (lower : Text) :
    ∀ r ∈ [SmartReply.affection, .sadness, .happiness, .default], questionReply lower ≠ r := by
  unfold questionReply
  split_ifs <;> decide

/-- No answered question of the context comes before the one that the message asks. -/
def UnshadowedQuestion (context : List Text) (userMessage : Text) : Prop :=
  contains (lowercase userMessage) (utf16 "your name") = true ∨
    ¬ ContextContains context "your name" ∧
      (contains (lowercase userMessage) (utf16 "how are you") = true ∨
        ¬ ContextContains context "how are you" ∧
          (contains (lowercase userMessage) (utf16 "what can you do") = true ∨
            ¬ ContextContains context "what can you do"))

/-- The message is no greeting, nothing around it is found before what it says itself, and it does
not fall through to the default. -/
def Unshadowed (mood : Mood) (context : List Text) (userMessage : Text) : Prop :=
  let lower := lowercase userMessage
  matchesGreeting lower = false ∧
    (containsAny lower affectionPhrases = true ∨
      ¬ ContextContainsAny context affectionPhrases ∧
        (containsAny lower sadnessPhrases = true ∨
          ¬ ContextContainsAny context sadnessPhrases ∧
            (containsAny lower happinessPhrases = true ∨
              ¬ (mood = .happy ∨ ContextContainsAny context happinessPhrases) ∧
                containsAny lower questionPhrases = true ∧
                  UnshadowedQuestion context userMessage)))

instance (mood : Mood) (context : List Text) (userMessage : Text) :
    Decidable (Unshadowed mood context userMessage) := by
  unfold Unshadowed UnshadowedQuestion; infer_instance

section Cascade

variable (mood : Mood) (memories : List MemoryEntity) (conversationHistory : List Text)
  (userMessage : Text)

/-- The questions of a prompt and of its message get the same answer. -/
theorem questionReply_buildPrompt_iff :
    questionReply (lowercase (buildPrompt mood memories conversationHistory userMessage)) =
        questionReply (lowercase userMessage) ↔
      UnshadowedQuestion (contextTexts memories conversationHistory) userMessage := by
  have hanswered := fun p hp => answeredQuestion_buildPrompt_iff mood memories conversationHistory
    userMessage p hp
  unfold questionReply UnshadowedQuestion
  rw [firstMatch_eq_iff (hanswered "your name" (by decide)) (by split_ifs <;> decide),
    firstMatch_eq_iff (hanswered "how are you" (by decide)) (by split_ifs <;> decide),
    firstMatch_eq_iff (hanswered "what can you do" (by decide)) (by decide), and_iff_left rfl]

/-- The last two branches. A prompt never falls through to the default. -/
theorem questionMatch_eq_iff {p : Prop} [Decidable p] :
    (questionReply (lowercase (buildPrompt mood memories conversationHistory userMessage)) =
        if p then questionReply (lowercase userMessage) else .default) ↔
      p ∧ UnshadowedQuestion (contextTexts memories conversationHistory) userMessage := by
  rw [← questionReply_buildPrompt_iff mood]
  by_cases hp : p
  · rw [if_pos hp, and_iff_right hp]
  · rw [if_neg hp]
    exact iff_of_false (questionReply_ne _ _ (by decide)) fun h => hp h.1

/-- **The stub finds in a prompt what it finds in the message, exactly when nothing around the
message comes first in the cascade.** -/
theorem smartReply_buildPrompt_iff :
    smartReply (buildPrompt mood memories conversationHistory userMessage) =
        smartReply userMessage ↔
      Unshadowed mood (contextTexts memories conversationHistory) userMessage := by
  unfold Unshadowed
  dsimp only
  cases hu : matchesGreeting (lowercase userMessage) with
  | true =>
    refine iff_of_false (fun h => ?_) (fun h => Bool.noConfusion h.1)
    have hprompt := congrArg SmartReply.isGreeting h
    rw [isGreeting_smartReply, isGreeting_smartReply, matchesGreeting_buildPrompt, hu] at hprompt
    cases hprompt
  | false =>
    obtain ⟨hmoodA, hmoodS, hmoodH⟩ := moodPrompt_categories mood
    have haffection := category_buildPrompt_iff mood memories conversationHistory userMessage
      affectionPhrases (by decide)
    have hsadness := category_buildPrompt_iff mood memories conversationHistory userMessage
      sadnessPhrases (by decide)
    have hhappiness := category_buildPrompt_iff mood memories conversationHistory userMessage
      happinessPhrases (by decide)
    rw [hmoodA, or_iff_right Bool.false_ne_true] at haffection
    rw [hmoodS, or_iff_right Bool.false_ne_true] at hsadness
    rw [hmoodH, decide_eq_true_eq] at hhappiness
    have hanswer := questionReply_ne (lowercase userMessage)
    unfold smartReply
    dsimp only
    rw [matchesGreeting_buildPrompt, hu, if_neg Bool.false_ne_true, if_neg Bool.false_ne_true,
      question_buildPrompt, if_pos rfl, and_iff_right rfl]
    rw [firstMatch_eq_iff haffection, firstMatch_eq_iff hsadness, firstMatch_eq_iff hhappiness,
      questionMatch_eq_iff]
    · split_ifs
      · exact hanswer _ (by decide)
      · decide
    · split_ifs
      · decide
      · exact hanswer _ (by decide)
      · decide
    · split_ifs
      · decide
      · decide
      · exact hanswer _ (by decide)
      · decide

end Cascade

example : Unshadowed .normal [] (utf16 "I love you") := by decide +kernel

/-- A greeting is not answered as one, and its answer changes with the mood. -/
theorem greeting_shadowed :
    smartReply (buildPrompt .normal [] [] (utf16 "hello")) ≠ smartReply (utf16 "hello") ∧
      smartReply (buildPrompt .happy [] [] (utf16 "hello")) ≠
        smartReply (buildPrompt .normal [] [] (utf16 "hello")) := by
  have hgreeting : ∀ mood, (smartReply (buildPrompt mood [] [] (utf16 "hello"))).isGreeting =
      false := by
    intro mood
    rw [isGreeting_smartReply, matchesGreeting_buildPrompt]
  constructor
  · intro h
    have hhello : (smartReply (utf16 "hello")).isGreeting = false := h ▸ hgreeting .normal
    revert hhello
    decide
  · have hno : ∀ mood, ∀ phrases ∈ [affectionPhrases, sadnessPhrases], ¬ containsAny
        (lowercase (buildPrompt mood [] [] (utf16 "hello"))) phrases = true := by
      intro mood phrases hphrases
      rw [category_buildPrompt_iff mood [] [] (utf16 "hello") phrases (by revert phrases; decide)]
      revert phrases
      cases mood <;> decide +kernel
    have hhappy : containsAny (lowercase (buildPrompt .happy [] [] (utf16 "hello")))
        happinessPhrases = true := by
      rw [category_buildPrompt_iff .happy [] [] (utf16 "hello") happinessPhrases (by decide)]
      decide +kernel
    have hnormal : ¬ containsAny (lowercase (buildPrompt .normal [] [] (utf16 "hello")))
        happinessPhrases = true := by
      rw [category_buildPrompt_iff .normal [] [] (utf16 "hello") happinessPhrases (by decide)]
      decide +kernel
    unfold smartReply
    dsimp only
    simp only [matchesGreeting_buildPrompt, Bool.false_eq_true, if_false,
      hno .happy affectionPhrases (by decide), hno .happy sadnessPhrases (by decide),
      hno .normal affectionPhrases (by decide), hno .normal sadnessPhrases (by decide), hhappy,
      hnormal, question_buildPrompt, if_true]
    exact (questionReply_ne _ _ (by decide)).symm

/-! ## The engine without the library -/

/-- Without the native library the reply is what the stub selects for the prompt. -/
theorem MlcLlm.generateWithMLCOrStub_returns_stub {native : NativeLayer} {ambient : Ambient}
    {prompt : Text} {params : GenerationParams} {m : MlcLlm} (hm : m.isNativeLoaded = false) :
    Jvm.Returns (generateWithMLCOrStub native ambient prompt params) m
      fun result m' => result.text = (smartReply prompt).text ambient.pick ∧ m' = m := by
  simp [generateWithMLCOrStub, hm, stubResult, generateSmartResponse]

end Kaede
