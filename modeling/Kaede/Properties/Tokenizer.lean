import Kaede.Properties.TokenizerRun
import Mathlib.Data.List.TakeWhile

/-!
# What the tokenizer computes

* `llamaTokenize_greedy` — the tokens are those of the characters, joined greedily until no
  neighbours can be joined, whatever the queue does with equal entries
* `llamaTokenizeTo_spells` — the texts of the tokens spell the text
-/

namespace Kaede.LlamaCpp

open Infra Relation

variable {Score : Type} [LinearOrder Score]

/-- Every run gives the tokens of greedily joined pieces. -/
theorem llamaTokenize_spec (queue : PriorityQueue (@LlamaSpBigram.less Score _))
    (vocab : LlamaVocab Score) (text : Token) (bos : Bool) :
    ∃ pieces, Greedy vocab text pieces ∧ llamaTokenize queue vocab text bos =
      some ((if bos && !text.isEmpty then [llamaTokenBos] else []) ++
        pieces.flatMap (outputSymbol vocab)) := by
  by_cases hne : text = []
  · subst hne
    exact ⟨[], ⟨by rw [chars], fun left a b right heq => by simp at heq⟩, by simp [llamaTokenize]⟩
  · have hempty : text.isEmpty = false := by simpa using hne
    obtain ⟨pieces, hgreedy, htokenize⟩ := tokenize_spec vocab queue hne
    refine ⟨pieces, hgreedy, ?_⟩
    rw [llamaTokenize, hempty, htokenize]
    cases bos <;> rfl

/-- The order of the queue: a high score, then a low index. -/
def LlamaSpBigram.key (b : LlamaSpBigram Score) : Score ×ₗ Natᵒᵈ :=
  toLex (b.score, OrderDual.toDual b.left)

theorem less_iff_key_lt (a b : LlamaSpBigram Score) : a.less b = true ↔ a.key < b.key := by
  rw [LlamaSpBigram.key, LlamaSpBigram.key, Prod.Lex.toLex_lt_toLex, LlamaSpBigram.less]
  simp

/-- **The tokenizer computes the greedy joining**, which is determined by the text and the
vocabulary. It never reads outside of the symbols or of the text, and it ends, whatever the queue
does with entries that rank the same. -/
theorem llamaTokenize_greedy {Score : Type} [LinearOrder Score] (vocab : LlamaVocab Score)
    (text : Token) :
    ∃ pieces, Greedy vocab text pieces ∧ (∀ pieces', Greedy vocab text pieces' → pieces' = pieces) ∧
      ∀ (queue : PriorityQueue (@LlamaSpBigram.less Score _)) (bos : Bool),
        llamaTokenize queue vocab text bos =
          some ((if bos && !text.isEmpty then [llamaTokenBos] else []) ++
            pieces.flatMap (outputSymbol vocab)) := by
  obtain ⟨pieces, hgreedy, -⟩ :=
    llamaTokenize_spec (.ofKey LlamaSpBigram.key less_iff_key_lt) vocab text false
  have hunique : ∀ pieces', Greedy vocab text pieces' → pieces' = pieces :=
    fun pieces' h => greedy_unique h.1 hgreedy.1 h.2 hgreedy.2
  refine ⟨pieces, hgreedy, hunique, fun queue bos => ?_⟩
  obtain ⟨pieces', hgreedy', htokenize⟩ := llamaTokenize_spec queue vocab text bos
  rw [htokenize, hunique pieces' hgreedy']

/-! ## Back to the text -/

/-- The ids of the tokens are their places in the table. -/
def Consistent {Score : Type} (vocab : LlamaVocab Score) : Prop :=
  ∀ word id, vocab.tokenToId word = some id →
    ∃ tokScore, vocab.idToToken[id]? = some tokScore ∧ tokScore.tok = word

theorem Consistent.readWord {Score : Type} {vocab : LlamaVocab Score} (h : Consistent vocab)
    (word : TokenScore Score) : Consistent (vocab.readWord word) := by
  intro w id hid
  rw [LlamaVocab.readWord] at hid ⊢
  simp only [Function.update_apply] at hid
  split at hid
  · next heq =>
    cases hid
    exact ⟨word, List.getElem?_concat_length, heq.symm⟩
  · obtain ⟨tokScore, hget, htok⟩ := h w id hid
    exact ⟨tokScore, by rw [List.getElem?_append_left (List.getElem?_eq_some_iff.mp hget).1, hget],
      htok⟩

theorem readVocab_spec {Score : Type} (words : List (TokenScore Score)) :
    Consistent (readVocab words) ∧ (readVocab words).idToToken = words := by
  induction words using List.reverseRecOn with
  | nil => exact ⟨fun word id hid => absurd hid (Option.some_ne_none id).symm, rfl⟩
  | append_singleton words word ih =>
    have hread : readVocab (words ++ [word]) = (readVocab words).readWord word := by
      rw [readVocab, List.foldl_append]
      rfl
    rw [hread]
    exact ⟨ih.1.readWord word, by rw [LlamaVocab.readWord, ih.2]⟩

theorem cString_eq_self {str : Token} (h : (0 : UInt8) ∉ str) : cString str = str := by
  rw [cString, List.takeWhile_eq_self_iff]
  intro c hc
  rw [bne_iff_ne]
  rintro rfl
  exact h hc

theorem zero_notMem_cString (str : Token) : (0 : UInt8) ∉ cString str := by
  intro h
  have hne := List.mem_takeWhile_imp h
  simp at hne

/-- The table has every byte but the null byte as a token, where the tokenizer looks for it. -/
def HasBytes {Score : Type} (words : List (TokenScore Score)) : Prop :=
  ∀ c : UInt8, c ≠ 0 → ∃ tokScore, words[c.toNat + 3]? = some tokScore ∧ tokScore.tok = [c]

/-- The texts of the tokens, one after the other. -/
def Spells {Score : Type} (vocab : LlamaVocab Score) (tokens : List TokenId) (str : Token) : Prop :=
  (tokens.mapM (llamaTokenToStr vocab)).map List.flatten = some str

section Spelling

variable {Score : Type} {vocab : LlamaVocab Score} {words : List (TokenScore Score)}

theorem Spells.append {tokens tokens' : List TokenId} {str str' : Token}
    (h : Spells vocab tokens str) (h' : Spells vocab tokens' str') :
    Spells vocab (tokens ++ tokens') (str ++ str') := by
  obtain ⟨strs, hstrs, rfl⟩ := Option.map_eq_some_iff.mp h
  obtain ⟨strs', hstrs', rfl⟩ := Option.map_eq_some_iff.mp h'
  rw [Spells, List.mapM_append, hstrs, hstrs', ← List.flatten_append]
  rfl

theorem Spells.singleton {token : TokenId} {tokScore : TokenScore Score}
    (hget : vocab.idToToken[token]? = some tokScore) (hzero : (0 : UInt8) ∉ tokScore.tok) :
    Spells vocab [token] tokScore.tok := by
  rw [Spells, List.mapM_cons, List.mapM_nil, llamaTokenToStr, hget, Option.map_some,
    cString_eq_self hzero]
  simp

theorem Spells.flatMap {pieces : List Token} {output : Token → List TokenId}
    (h : ∀ piece ∈ pieces, Spells vocab (output piece) piece) :
    Spells vocab (pieces.flatMap output) pieces.flatten := by
  induction pieces with
  | nil => rfl
  | cons piece pieces ih =>
    rw [List.flatMap_cons, List.flatten_cons]
    exact (h piece List.mem_cons_self).append
      (ih fun piece' hpiece' => h piece' (List.mem_cons_of_mem piece hpiece'))

/-- Bytes that did not form a token spell themselves. -/
theorem spells_bytes (hbytes : HasBytes words) {piece : Token} (hpiece : (0 : UInt8) ∉ piece) :
    Spells (readVocab words) (piece.map fun c => c.toNat + 3) piece := by
  induction piece with
  | nil => rfl
  | cons c piece ih =>
    rw [List.mem_cons, not_or] at hpiece
    obtain ⟨tokScore, hget, htok⟩ := hbytes c (Ne.symm hpiece.1)
    rw [← (readVocab_spec words).2] at hget
    have hfirst := Spells.singleton hget (by rw [htok]; simpa using hpiece.1)
    rw [htok] at hfirst
    exact hfirst.append (ih hpiece.2)

/-- The tokens of a piece spell the piece, be it a token or not. -/
theorem spells_outputSymbol (hbytes : HasBytes words) {piece : Token}
    (hpiece : (0 : UInt8) ∉ piece) :
    Spells (readVocab words) (outputSymbol (readVocab words) piece) piece := by
  rw [outputSymbol]
  split
  · exact spells_bytes hbytes hpiece
  · next id hid =>
    obtain ⟨tokScore, hget, rfl⟩ := (readVocab_spec words).1 piece id hid
    exact .singleton hget hpiece

/-- A piece gives no more tokens than it has bytes. -/
theorem length_outputSymbol_le (vocab : LlamaVocab Score) {piece : Token} (hpiece : piece ≠ []) :
    (outputSymbol vocab piece).length ≤ piece.length := by
  rw [outputSymbol]
  split
  · rw [List.length_map]
  · exact List.length_pos_iff.mpr hpiece

theorem length_flatMap_outputSymbol_le (vocab : LlamaVocab Score) {pieces : List Token}
    (hpieces : ∀ piece ∈ pieces, piece ≠ []) :
    (pieces.flatMap (outputSymbol vocab)).length ≤ pieces.flatten.length := by
  induction pieces with
  | nil => exact le_refl _
  | cons piece pieces ih =>
    rw [List.flatMap_cons, List.flatten_cons, List.length_append, List.length_append]
    exact Nat.add_le_add (length_outputSymbol_le vocab (hpieces piece List.mem_cons_self))
      (ih fun piece' hpiece' => hpieces piece' (List.mem_cons_of_mem piece hpiece'))

end Spelling

/-- **The tokens spell the text**, and one place more than the text has bytes is room enough for
them. -/
theorem llamaTokenizeTo_spells {Score : Type} [LinearOrder Score] {words : List (TokenScore Score)}
    (hbytes : HasBytes words) (queue : PriorityQueue (@LlamaSpBigram.less Score _)) (text : Token)
    (addBos : Bool) :
    ∃ tokens, Spells (readVocab words) tokens (cString text) ∧
      ∀ nMaxTokens : Int, ((cString text).length : Int) + 1 ≤ nMaxTokens →
        llamaTokenizeTo queue (readVocab words) text nMaxTokens addBos =
          let res := if addBos && !(cString text).isEmpty then llamaTokenBos :: tokens else tokens
          some ((res.length : Int), res) := by
  obtain ⟨pieces, ⟨hjoined, -⟩, htokenize⟩ :=
    llamaTokenize_spec queue (readVocab words) (cString text) addBos
  have hspelled : pieces.flatten = cString text :=
    (flatten_of_greedy hjoined).trans (flatten_chars _)
  have hzero : ∀ piece ∈ pieces, (0 : UInt8) ∉ piece := fun piece hpiece hmem =>
    zero_notMem_cString text (hspelled ▸ List.mem_flatten.mpr ⟨piece, hpiece, hmem⟩)
  have hlength := length_flatMap_outputSymbol_le (readVocab words)
    (ne_nil_of_greedy hjoined chars_ne_nil)
  rw [hspelled] at hlength
  refine ⟨pieces.flatMap (outputSymbol (readVocab words)), ?_, fun nMaxTokens hroom => ?_⟩
  · have hspells := Spells.flatMap fun piece hpiece => spells_outputSymbol hbytes (hzero piece hpiece)
    rw [hspelled] at hspells
    exact hspells
  · simp only [llamaTokenizeTo, htokenize, Option.bind_eq_bind, Option.bind_some]
    cases addBos && !(cString text).isEmpty
    · rw [if_neg Bool.false_ne_true, if_neg Bool.false_ne_true, List.nil_append, if_neg (by omega)]
    · rw [if_pos rfl, if_pos rfl, List.singleton_append, if_neg]
      rw [List.length_cons]
      omega

/-- The table of a converted model: what stands for unknown text, for the start and for the end,
then the bytes, then the words. -/
def convertedWords (words : List Token) : List (TokenScore Nat) :=
  List.replicate 3 ⟨[], 0⟩ ++ (List.range 256).map (fun c => ⟨[UInt8.ofNat c], 0⟩) ++
    words.map fun word => ⟨word, word.length⟩

theorem hasBytes_convertedWords (words : List Token) : HasBytes (convertedWords words) := by
  intro c _
  have hlt := c.toNat_lt
  refine ⟨⟨[c], 0⟩, ?_, rfl⟩
  rw [convertedWords, List.append_assoc, List.getElem?_append_right (by simp),
    List.getElem?_append_left (by simpa using hlt), List.length_replicate, Nat.add_sub_cancel,
    List.getElem?_map, List.getElem?_range hlt, Option.map_some, UInt8.ofNat_toNat]

/-- A text of four bytes, with "abc" as its only word. -/
theorem llamaTokenizeTo_spells_word :
    ∃ tokens, Spells (readVocab (convertedWords [[0x61, 0x62, 0x63]])) tokens
        [0x61, 0x62, 0x63, 0x20] ∧
      ∀ nMaxTokens : Int, 5 ≤ nMaxTokens →
        llamaTokenizeTo (.ofKey LlamaSpBigram.key less_iff_key_lt)
            (readVocab (convertedWords [[0x61, 0x62, 0x63]])) [0x61, 0x62, 0x63, 0x20, 0x00]
            nMaxTokens true =
          some (((llamaTokenBos :: tokens).length : Int), llamaTokenBos :: tokens) :=
  llamaTokenizeTo_spells (hasBytes_convertedWords _) _ [0x61, 0x62, 0x63, 0x20, 0x00] true

end Kaede.LlamaCpp
