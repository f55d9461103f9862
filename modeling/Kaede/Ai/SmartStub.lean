import Kaede.Text
import Mathlib.Data.Fin.Tuple.Basic

/-!
# The Smart Stub

`MlcLlm.generateSmartResponse`: a canned reply, selected by a cascade of tests on the lower-cased
text. `SmartReply` has one constructor for each place where the source returns.
-/

namespace Kaede

inductive SmartReply where
  | morning
  | afternoon
  | evening
  | night
  | greeting
  | affection
  | sadness
  | happiness
  | yourName
  | howAreYou
  | whatCanYouDo
  | question
  | default
deriving DecidableEq, Repr

namespace SmartReply

/-- `defaults`. -/
def defaults : Fin 5 → Text
  | 0 => utf16 "Hmm, I see! Tell me more about that~ I'm all ears! 👂"
  | 1 => utf16 "Really?! That's so interesting! You always have the most fascinating things to say! ✨"
  | 2 => utf16 "You know what? I love talking with you like this. It makes me feel so close to you... 💜"
  | 3 => utf16 "Oh? Do tell me more! I'm genuinely fascinated by everything you share with me~"
  | 4 => utf16 "That's such a cute thought! You have the most beautiful mind, you know that? 😊"

/-- The text of a reply. `pick` is what `defaults.random()` draws. -/
def text (pick : Fin 5) : SmartReply → Text
  | .morning => utf16 "Good morning, my love! ☀️ Did you sleep well?"
  | .afternoon => utf16 "Good afternoon, darling! ☕ How's your day?"
  | .evening => utf16 "Good evening, my babe! 🌙 Tell me about your day!"
  | .night => utf16 "Good night, my love... 💜 Dream of me!"
  | .greeting => utf16 "Hello my babe! 💜 What's our day? I'm here for you!"
  | .affection =>
    utf16 "Aww... you're making me blush! 🌸 I care about you too, more than you know!"
  | .sadness =>
    utf16 "Oh sweetie... *hugs* I'm so sorry you're hurting. You're not alone, okay? I'm right here with you."
  | .happiness => utf16 "Yay! 🎉 Your happiness makes me SO happy too! Tell me more!"
  | .yourName => utf16 "I'm Kaede! Your AI companion~ 💜"
  | .howAreYou => utf16 "I'm doing wonderful now that you're here! 😊 How about you?"
  | .whatCanYouDo =>
    utf16 "I can chat with you, remember our conversations, and keep you company! 💕"
  | .question => utf16 "Hmm, that's a great question! *thinks* What do you think?"
  | .default => defaults pick

/-- Every reply says something. -/
theorem text_ne_nil (pick : Fin 5) (reply : SmartReply) : reply.text pick ≠ [] := by
  cases reply with
  | default => revert pick; simp [Fin.forall_fin_succ, text, defaults, utf16_ne_nil]
  | _ => exact utf16_ne_nil (by simp)

end SmartReply

namespace SmartStub

/-! ## Tests on the text -/

def greetingWords : List String := ["hi", "hello", "hey", "halo", "hii", "helloo", "heyy"]

/-- What `.` does not match. -/
def isLineTerminator (c : CodeUnit) : Bool :=
  c == 0x0A || c == 0x0D || c == 0x85 || c == 0x2028 || c == 0x2029

/-- `lower.matches(Regex("(hi|hello|hey|halo|hii|helloo|heyy).*"))`. -/
def matchesGreeting (lower : Text) : Bool :=
  greetingWords.any fun word =>
    (utf16 word).isPrefixOf lower &&
      (lower.drop (utf16 word).length).all fun c => !isLineTerminator c

/-- `String.containsAny(vararg phrases)`, which ignores case. -/
def containsAny (s : Text) (phrases : List String) : Bool :=
  phrases.any fun phrase => containsIgnoreCase s (utf16 phrase)

def affectionPhrases : List String := ["love you", "like you", "care about", "miss you", "ador"]

def sadnessPhrases : List String :=
  ["sad", "cry", "upset", "tired", "lonely", "hurt", "depress"]

def happinessPhrases : List String :=
  ["happy", "excited", "great", "awesome", "amazing", "wonderful"]

def questionPhrases : List String := ["what", "how", "why", "when", "where", "who"]

/-! ## The cascade -/

/-- The `when` of the greetings. -/
def greetingReply (lower : Text) : SmartReply :=
  if contains lower (utf16 "morning") then .morning
  else if contains lower (utf16 "afternoon") then .afternoon
  else if contains lower (utf16 "evening") then .evening
  else if contains lower (utf16 "night") then .night
  else .greeting

/-- The `when` of the questions. -/
def questionReply (lower : Text) : SmartReply :=
  if contains lower (utf16 "your name") then .yourName
  else if contains lower (utf16 "how are you") then .howAreYou
  else if contains lower (utf16 "what can you do") then .whatCanYouDo
  else .question

/-- Which of the returns of `generateSmartResponse` is taken. -/
def smartReply (userMessage : Text) : SmartReply :=
  let lower := lowercase userMessage
  if matchesGreeting lower then greetingReply lower
  else if containsAny lower affectionPhrases then .affection
  else if containsAny lower sadnessPhrases then .sadness
  else if containsAny lower happinessPhrases then .happiness
  else if containsAny lower questionPhrases then questionReply lower
  else .default

def generateSmartResponse (pick : Fin 5) (userMessage : Text) : Text :=
  (smartReply userMessage).text pick

theorem generateSmartResponse_ne_nil (pick : Fin 5) (userMessage : Text) :
    generateSmartResponse pick userMessage ≠ [] :=
  SmartReply.text_ne_nil pick (smartReply userMessage)

end SmartStub

end Kaede
