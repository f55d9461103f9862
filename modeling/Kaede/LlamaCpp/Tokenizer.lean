import Kaede.Infra.PriorityQueue
import Kaede.Infra.WhileLoop
import Mathlib.Data.Prod.Lex
import Mathlib.Data.List.Induction

/-!
# The tokenizer of `llama.cpp`

A text is cut into UTF-8 characters. They are linked to each other, and neighbours are merged as
long as the vocabulary has a token for both together, the one with the highest score first. Which
merges are possible is kept in a priority queue; an entry whose symbols have changed since is
skipped when it comes up.

Indices into `symbols` are natural numbers, and `-1` is `none`. A pointer into the text is an
offset. Reading outside of the symbols or of the text is `none`, for the whole call. The scores are
any linear order: a score that is no number does not occur.
-/

namespace Kaede.LlamaCpp

open Infra

/-- `std::string` -/
abbrev Token := List UInt8

abbrev TokenId := Nat

structure TokenScore (Score : Type) where
  tok : Token
  score : Score

structure LlamaVocab (Score : Type) where
  tokenToId : Token → Option TokenId
  idToToken : List (TokenScore Score)

/-- One round of `read_vocab`, which numbers the words in the order of the file. -/
def LlamaVocab.readWord {Score : Type} (vocab : LlamaVocab Score) (word : TokenScore Score) :
    LlamaVocab Score where
  tokenToId := Function.update vocab.tokenToId word.tok (some vocab.idToToken.length)
  idToToken := vocab.idToToken ++ [word]

def readVocab {Score : Type} (words : List (TokenScore Score)) : LlamaVocab Score :=
  words.foldl LlamaVocab.readWord { tokenToId := fun _ => none, idToToken := [] }

/-! ## Symbols -/

structure LlamaSpSymbol where
  prev : Option Nat
  next : Option Nat
  text : Nat
  n : Nat
  deriving DecidableEq, Repr

structure LlamaSpBigram (Score : Type) where
  left : Nat
  right : Nat
  score : Score
  size : Nat

/-- The number of bytes of a character, by its first byte. -/
def utf8Len (src : UInt8) : Nat :=
  [1, 1, 1, 1, 1, 1, 1, 1, 1, 1, 1, 1, 2, 2, 3, 4].getD (src >>> 4).toNat 1

/-- `std::string(text + offs, n)` -/
def substring (text : Token) (offs n : Nat) : Option Token :=
  if offs + n ≤ text.length then some ((text.drop offs).take n) else none

/-- The local variables of the loop that cuts the text into characters. -/
structure SplitState where
  symbols : List LlamaSpSymbol
  index : Nat
  offs : Nat

/-- The next character becomes a symbol. -/
def splitChar (text : Token) (s : SplitState) : Option SplitState := do
  let src ← text[s.offs]?
  let charLen := min (text.length - s.offs) (utf8Len src)
  let offs := s.offs + charLen
  let sym : LlamaSpSymbol :=
    { text := s.offs
      n := charLen
      prev := if s.index = 0 then none else some (s.index - 1)
      next := if offs = text.length then none else some (s.index + 1) }
  some { symbols := s.symbols ++ [sym], index := s.index + 1, offs }

theorem utf8Len_pos (src : UInt8) : 0 < utf8Len src := by
  have htable : ∀ x ∈ [1, 1, 1, 1, 1, 1, 1, 1, 1, 1, 1, 1, 2, 2, 3, 4], 0 < x := by decide
  unfold utf8Len
  rw [List.getD_eq_getElem?_getD]
  cases h : [1, 1, 1, 1, 1, 1, 1, 1, 1, 1, 1, 1, 2, 2, 3, 4][(src >>> 4).toNat]? with
  | none => exact Nat.one_pos
  | some x => exact htable x (List.mem_of_getElem? h)

theorem splitChar_eq_some {text : Token} {s t : SplitState} (h : splitChar text s = some t) :
    ∃ src, text[s.offs]? = some src ∧
      t.offs = s.offs + min (text.length - s.offs) (utf8Len src) ∧ t.index = s.index + 1 ∧
      t.symbols = s.symbols ++
        [{ text := s.offs
           n := min (text.length - s.offs) (utf8Len src)
           prev := if s.index = 0 then none else some (s.index - 1)
           next := if t.offs = text.length then none else some (s.index + 1) }] := by
  obtain ⟨src, hsrc, heq⟩ := Option.bind_eq_some_iff.mp h
  cases heq
  exact ⟨src, hsrc, rfl, rfl, rfl⟩

/-- split string into utf8 chars -/
def splitChars (text : Token) : WhileLoop SplitState where
  guard s := s.offs < text.length
  body := splitChar text
  measure s := text.length - s.offs
  decreases s t hguard hbody := by
    obtain ⟨src, -, hoffs, -⟩ := splitChar_eq_some hbody
    have hlt := of_decide_eq_true hguard
    have hpos := utf8Len_pos src
    omega

/-! ## The work queue -/

section Merging

variable {Score : Type} [LinearOrder Score]

/-- `llama_sp_bigram::comparator` -/
def LlamaSpBigram.less (l r : LlamaSpBigram Score) : Bool :=
  l.score < r.score || (l.score == r.score && l.left > r.left)

structure LlamaTokenizer (Score : Type) where
  symbols : List LlamaSpSymbol
  workQueue : List (LlamaSpBigram Score)

variable (queue : PriorityQueue (@LlamaSpBigram.less Score _)) (vocab : LlamaVocab Score)
  (text : Token)

def tryAddBigram (t : LlamaTokenizer Score) : Option Nat → Option Nat → Option (LlamaTokenizer Score)
  | some left, some right => do
    let leftSym ← t.symbols[left]?
    let rightSym ← t.symbols[right]?
    let both ← substring text leftSym.text (leftSym.n + rightSym.n)
    match vocab.tokenToId both with
    | none => some t
    | some id =>
      match vocab.idToToken[id]? with
      -- the id is outside of the table
      | none => some t
      | some tokScore =>
        some { t with
          workQueue := queue.push t.workQueue
            { left, right, score := tokScore.score, size := both.length } }
  | _, _ => some t

/-- The right symbol goes into the left one and out of the chain. -/
def mergeSymbols (symbols : List LlamaSpSymbol) (left right : Nat)
    (leftSym rightSym : LlamaSpSymbol) : Option (List LlamaSpSymbol) :=
  let symbols := symbols.set left { leftSym with n := leftSym.n + rightSym.n, next := rightSym.next }
  let symbols := symbols.set right { rightSym with n := 0 }
  match rightSym.next with
  | none => some symbols
  | some next => do
    let nextSym ← symbols[next]?
    some (symbols.set next { nextSym with prev := some left })

/-- One round of the loop: the best entry of the queue is taken out. -/
def substitute (t : LlamaTokenizer Score) : Option (LlamaTokenizer Score) := do
  let (bigram, workQueue) ← queue.pop t.workQueue
  let leftSym ← t.symbols[bigram.left]?
  let rightSym ← t.symbols[bigram.right]?
  -- if one of the symbols already got merged, skip it.
  if leftSym.n = 0 ∨ rightSym.n = 0 ∨ leftSym.n + rightSym.n ≠ bigram.size then
    some { t with workQueue }
  else do
    let symbols ← mergeSymbols t.symbols bigram.left bigram.right leftSym rightSym
    let leftSym ← symbols[bigram.left]?
    -- find more substitutions
    let t ← tryAddBigram queue vocab text { symbols, workQueue } leftSym.prev (some bigram.left)
    tryAddBigram queue vocab text t (some bigram.left) leftSym.next

/-! ## Every round lowers the number of entries or of symbols -/

variable {queue vocab text} {symbols symbols' : List LlamaSpSymbol}
  {t t' : LlamaTokenizer Score} {left right : Nat} {leftSym rightSym : LlamaSpSymbol}

theorem tryAddBigram_cases {left right : Option Nat}
    (h : tryAddBigram queue vocab text t left right = some t') :
    t' = t ∨ ∃ bigram, t' = { t with workQueue := queue.push t.workQueue bigram } := by
  unfold tryAddBigram at h
  split at h
  · obtain ⟨leftSym, -, h⟩ := Option.bind_eq_some_iff.mp h
    obtain ⟨rightSym, -, h⟩ := Option.bind_eq_some_iff.mp h
    obtain ⟨both, -, h⟩ := Option.bind_eq_some_iff.mp h
    split at h
    · exact .inl (Option.some.inj h).symm
    · split at h
      · exact .inl (Option.some.inj h).symm
      · exact .inr ⟨_, (Option.some.inj h).symm⟩
  · exact .inl (Option.some.inj h).symm

theorem tryAddBigram_symbols {left right : Option Nat}
    (h : tryAddBigram queue vocab text t left right = some t') :
    t'.symbols = t.symbols ∧ t'.workQueue.length ≤ t.workQueue.length + 1 := by
  rcases tryAddBigram_cases h with rfl | ⟨bigram, rfl⟩
  · exact ⟨rfl, Nat.le_succ _⟩
  · exact ⟨rfl, queue.length_push.le⟩

theorem set_of_getElem? {α : Type} {l : List α} {i : Nat} {x : α} (h : l[i]? = some x) :
    l.set i x = l := by
  obtain ⟨hlt, rfl⟩ := List.getElem?_eq_some_iff.mp h
  exact List.set_getElem_self hlt

/-- What merging does to the lengths. -/
theorem map_n_mergeSymbols (h : mergeSymbols symbols left right leftSym rightSym = some symbols') :
    symbols'.map (·.n) =
      ((symbols.map (·.n)).set left (leftSym.n + rightSym.n)).set right 0 := by
  unfold mergeSymbols at h
  simp only at h
  split at h
  · rw [← Option.some.inj h, List.map_set, List.map_set]
  · next next _ =>
    obtain ⟨nextSym, hnext, h⟩ := Option.bind_eq_some_iff.mp h
    have hself := congrArg (Option.map (·.n)) hnext
    rw [← List.getElem?_map, Option.map_some] at hself
    rw [← Option.some.inj h, List.map_set, set_of_getElem? hself, List.map_set, List.map_set]

theorem countP_set_zero {lens : List Nat} {i n : Nat} (h : lens[i]? = some n) (hn : n ≠ 0) :
    (lens.set i 0).countP (· ≠ 0) + 1 = lens.countP (· ≠ 0) := by
  obtain ⟨hlt, hget⟩ := List.getElem?_eq_some_iff.mp h
  have hpos : 0 < lens.countP (· ≠ 0) :=
    List.countP_pos_iff.mpr ⟨n, List.mem_of_getElem? h, decide_eq_true hn⟩
  rw [List.countP_set hlt, hget, if_pos (decide_eq_true hn), if_neg (by simp)]
  omega

theorem countP_set_pos {lens : List Nat} {i n m : Nat} (h : lens[i]? = some n) (hn : n ≠ 0)
    (hm : m ≠ 0) : (lens.set i m).countP (· ≠ 0) = lens.countP (· ≠ 0) := by
  obtain ⟨hlt, hget⟩ := List.getElem?_eq_some_iff.mp h
  have hpos : 0 < lens.countP (· ≠ 0) :=
    List.countP_pos_iff.mpr ⟨n, List.mem_of_getElem? h, decide_eq_true hn⟩
  rw [List.countP_set hlt, hget, if_pos (decide_eq_true hn), if_pos (decide_eq_true hm)]
  omega

/-- The number of symbols in the chain. -/
def alive (symbols : List LlamaSpSymbol) : Nat := (symbols.map (·.n)).countP (· ≠ 0)

/-- A merge leaves one symbol less. -/
theorem alive_mergeSymbols (h : mergeSymbols symbols left right leftSym rightSym = some symbols')
    (hleft : symbols[left]? = some leftSym) (hright : symbols[right]? = some rightSym)
    (hleftn : leftSym.n ≠ 0) (hrightn : rightSym.n ≠ 0) :
    alive symbols' + 1 = alive symbols := by
  have hsum : leftSym.n + rightSym.n ≠ 0 := by omega
  have hl : (symbols.map (·.n))[left]? = some leftSym.n := by rw [List.getElem?_map, hleft]; rfl
  have hr : (symbols.map (·.n))[right]? = some rightSym.n := by rw [List.getElem?_map, hright]; rfl
  -- the two may be the same symbol
  have hr' : ∃ n, ((symbols.map (·.n)).set left (leftSym.n + rightSym.n))[right]? = some n ∧
      n ≠ 0 := by
    rw [List.getElem?_set]
    split
    · rw [if_pos (List.getElem?_eq_some_iff.mp hl).1]
      exact ⟨_, rfl, hsum⟩
    · exact ⟨_, hr, hrightn⟩
  obtain ⟨n, hn, hpos⟩ := hr'
  rw [alive, map_n_mergeSymbols h, countP_set_zero hn hpos, countP_set_pos hl hleftn hsum, alive]

/-- What one round does, whatever the state: it skips an entry or merges two symbols. -/
theorem substitute_cases (h : substitute queue vocab text t = some t') :
    ∃ bigram workQueue leftSym rightSym, queue.pop t.workQueue = some (bigram, workQueue) ∧
      t.symbols[bigram.left]? = some leftSym ∧ t.symbols[bigram.right]? = some rightSym ∧
      (((leftSym.n = 0 ∨ rightSym.n = 0 ∨ leftSym.n + rightSym.n ≠ bigram.size) ∧
          t' = { t with workQueue }) ∨
        (leftSym.n ≠ 0 ∧ rightSym.n ≠ 0 ∧ leftSym.n + rightSym.n = bigram.size ∧
          ∃ symbols leftSym' t₁,
            mergeSymbols t.symbols bigram.left bigram.right leftSym rightSym = some symbols ∧
            symbols[bigram.left]? = some leftSym' ∧
            tryAddBigram queue vocab text { symbols, workQueue } leftSym'.prev (some bigram.left) =
              some t₁ ∧
            tryAddBigram queue vocab text t₁ (some bigram.left) leftSym'.next = some t')) := by
  obtain ⟨⟨bigram, workQueue⟩, hpop, h⟩ := Option.bind_eq_some_iff.mp h
  obtain ⟨leftSym, hleft, h⟩ := Option.bind_eq_some_iff.mp h
  obtain ⟨rightSym, hright, h⟩ := Option.bind_eq_some_iff.mp h
  refine ⟨bigram, workQueue, leftSym, rightSym, hpop, hleft, hright, ?_⟩
  split at h
  · next hskip => exact .inl ⟨hskip, (Option.some.inj h).symm⟩
  · next hmerge =>
    simp only [not_or, Decidable.not_not] at hmerge
    obtain ⟨symbols, hsymbols, h⟩ := Option.bind_eq_some_iff.mp h
    obtain ⟨leftSym', hleft', h⟩ := Option.bind_eq_some_iff.mp h
    obtain ⟨t₁, ht₁, h⟩ := Option.bind_eq_some_iff.mp h
    exact .inr ⟨hmerge.1, hmerge.2.1, hmerge.2.2, symbols, leftSym', t₁, hsymbols, hleft', ht₁, h⟩

/-- keep substituting the highest frequency pairs for as long as we can. -/
def substitutions (queue : PriorityQueue (@LlamaSpBigram.less Score _))
    (vocab : LlamaVocab Score) (text : Token) : WhileLoop (LlamaTokenizer Score) where
  guard t := !t.workQueue.isEmpty
  body := substitute queue vocab text
  measure t := t.workQueue.length + 2 * alive t.symbols
  decreases t t' _ hbody := by
    obtain ⟨bigram, workQueue, leftSym, rightSym, hpop, hleft, hright, hcase⟩ :=
      substitute_cases hbody
    have hlength := queue.length_pop hpop
    rcases hcase with ⟨-, rfl⟩ | ⟨hleftn, hrightn, -, symbols, leftSym', t₁, hmerge, -, h₁, h₂⟩
    · simp only
      omega
    · have halive := alive_mergeSymbols hmerge hleft hright hleftn hrightn
      obtain ⟨hsymbols₁, hqueue₁⟩ := tryAddBigram_symbols h₁
      obtain ⟨hsymbols₂, hqueue₂⟩ := tryAddBigram_symbols h₂
      rw [hsymbols₂, hsymbols₁]
      simp only at hqueue₁ halive ⊢
      omega

/-! ## Tokens -/

variable (queue vocab text)

/-- output any symbols that did not form tokens as bytes. -/
def outputSymbol (str : Token) : List TokenId :=
  match vocab.tokenToId str with
  | none => str.map fun c => c.toNat + 3
  | some id => [id]

/-- The last loop, which follows the chain. It visits at most `fuel` symbols. -/
def outputChain (symbols : List LlamaSpSymbol) : Nat → Option Nat → Option (List TokenId)
  | _, none => some []
  | 0, some _ => none
  | fuel + 1, some i => do
    let symbol ← symbols[i]?
    let str ← substring text symbol.text symbol.n
    let rest ← outputChain symbols fuel symbol.next
    some (outputSymbol vocab str ++ rest)

/-- seed the work queue with all possible 2-character tokens. -/
def seed (symbols : List LlamaSpSymbol) : Option (LlamaTokenizer Score) :=
  (List.range (symbols.length - 1)).foldlM
    (fun t i => tryAddBigram queue vocab text t (some i) (some (i + 1))) { symbols, workQueue := [] }

def tokenize : Option (List TokenId) := do
  let s ← (splitChars text).run { symbols := [], index := 0, offs := 0 }
  let t ← seed queue vocab text s.symbols
  let t ← (substitutions queue vocab text).run t
  outputChain vocab text t.symbols t.symbols.length (some 0)

def llamaTokenBos : TokenId := 1

def llamaTokenize (bos : Bool) : Option (List TokenId) :=
  if text.isEmpty then some []
  else do
    let output ← tokenize queue vocab text
    some (if bos then llamaTokenBos :: output else output)

/-- What a `const char *` to the text stands for. -/
def cString (text : Token) : Token := text.takeWhile (· != 0)

/-- `llama_tokenize` of `llama.h`: what it returns, and what it writes to `tokens`. -/
def llamaTokenizeTo (nMaxTokens : Int) (addBos : Bool) : Option (Int × List TokenId) := do
  let res ← llamaTokenize queue vocab (cString text) addBos
  some (if nMaxTokens < res.length then (-res.length, []) else (res.length, res))

def llamaTokenToStr (token : TokenId) : Option Token :=
  (vocab.idToToken[token]?).map fun tokScore => cString tokScore.tok

end Merging

end Kaede.LlamaCpp
