import Kaede.Text

/-!
# `QueryClassifier`

The log messages are left out.
-/

namespace Kaede

inductive QueryComplexity where
  | minimal
  | normal
  | high
deriving DecidableEq, Repr

namespace QueryClassifier

def complexKeywords : List Text :=
  [utf16 "explain", utf16 "how does", utf16 "why", utf16 "what is", utf16 "describe",
    utf16 "analyze", utf16 "compare", utf16 "difference between", utf16 "calculate", utf16 "solve",
    utf16 "code", utf16 "program", utf16 "algorithm", utf16 "function", utf16 "debug",
    utf16 "summarize", utf16 "list all", utf16 "every", utf16 "complete guide",
    utf16 "step by step", utf16 "tutorial", utf16 "how to make", utf16 "create"]

def greetingKeywords : List Text :=
  [utf16 "hi", utf16 "hello", utf16 "hey", utf16 "good morning", utf16 "good afternoon",
    utf16 "good evening", utf16 "how are you", utf16 "what's up", utf16 "yo", utf16 "halo",
    utf16 "hai", utf16 "selamat pagi", utf16 "selamat siang", utf16 "selamat malam"]

def emotionalKeywords : List Text :=
  [utf16 "love", utf16 "miss", utf16 "happy", utf16 "sad", utf16 "angry", utf16 "excited",
    utf16 "tired", utf16 "stressed", utf16 "worried", utf16 "afraid", utf16 "hope", utf16 "dream",
    utf16 "wish", utf16 "feel", utf16 "emotion", utf16 "heart"]

def classify (query : Text) : QueryComplexity :=
  let lowerQuery := trim (lowercase query)
  let wordCount := (splitSpaces lowerQuery).length
  if greetingKeywords.any (contains lowerQuery) then .minimal
  else
    let hasComplexKeywords := complexKeywords.any (contains lowerQuery)
    if hasComplexKeywords || 20 < wordCount then .high
    -- emotional content is only logged
    else if emotionalKeywords.any (contains lowerQuery) then .normal
    else .normal

end QueryClassifier

end Kaede
