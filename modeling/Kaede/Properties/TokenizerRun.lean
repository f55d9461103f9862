import Kaede.Properties.TokenizerQueue
import Mathlib.Data.List.Perm.Subperm

/-!
# A run of the tokenizer

Splitting makes a chain of the characters, seeding queues all neighbours, and every round of the
loop keeps what `Chain` and `Queued` say. So the run ends with the pieces joined as far as the
vocabulary goes.

* `splitChars_spec`, `seed_spec`, `substitutions_spec`, `outputChain_spec` — the four parts
* `tokenize_spec` — the whole
-/

namespace Kaede.LlamaCpp

open Infra Relation

variable {Score : Type} {text : Token}

/-! ## Splitting -/

/-- The characters before `offs` are symbols already. -/
structure Splitting (text : Token) (s : SplitState) (cells : List (Nat × Token)) : Prop where
  index : s.index = cells.length
  symbols : s.symbols.length = cells.length
  range : cells.map Prod.fst = List.range cells.length
  offs : s.offs = (cells.map Prod.snd).flatten.length
  linked : Linked (prevOf s.symbols) (nextOf s.symbols) none
    (if s.offs = text.length then none else some s.index) (cells.map Prod.fst)
  laid : Laid s.symbols 0 cells
  chars : cells.map Prod.snd ++ chars (text.drop s.offs) = chars text

theorem splitting_init : Splitting text { symbols := [], index := 0, offs := 0 } [] where
  index := rfl
  symbols := rfl
  range := rfl
  offs := rfl
  linked := trivial
  laid := trivial
  chars := rfl

/-- **One more character.** -/
theorem Splitting.step {s : SplitState} {cells : List (Nat × Token)} (h : Splitting text s cells)
    (hlt : s.offs < text.length) :
    ∃ t cells', splitChar text s = some t ∧ Splitting text t cells' := by
  obtain ⟨src, hsrc⟩ : ∃ src, text[s.offs]? = some src := ⟨_, List.getElem?_eq_getElem hlt⟩
  obtain ⟨t, ht⟩ : ∃ t, splitChar text s = some t := by
    simp only [splitChar, hsrc, Option.bind_eq_bind, Option.bind_some]
    exact ⟨_, rfl⟩
  obtain ⟨src', hsrc', hoffs, hindex, hsymbols⟩ := splitChar_eq_some ht
  cases hsrc.symm.trans hsrc'
  have hpos := utf8Len_pos src
  have hchars := chars_drop hsrc
  generalize hcharLen : min (text.length - s.offs) (utf8Len src) = charLen
    at hoffs hsymbols hchars
  have hlength : ((text.drop s.offs).take charLen).length = charLen := by
    rw [List.length_take, List.length_drop]
    omega
  have hold : ∀ k ∈ cells.map Prod.fst, t.symbols[k]? = s.symbols[k]? := by
    intro k hk
    rw [h.range, List.mem_range, ← h.symbols] at hk
    rw [hsymbols, List.getElem?_append_left hk]
  have hnew : t.symbols[cells.length]? = some
      { text := s.offs
        n := charLen
        prev := if s.index = 0 then none else some (s.index - 1)
        next := if t.offs = text.length then none else some (s.index + 1) } := by
    rw [hsymbols, ← h.symbols, List.getElem?_concat_length]
  refine ⟨t, cells ++ [(cells.length, (text.drop s.offs).take charLen)], ht, ?_, ?_, ?_, ?_, ?_, ?_,
    ?_⟩
  · rw [hindex, h.index, List.length_append, List.length_singleton]
  · rw [hsymbols, List.length_append, List.length_append, h.symbols, List.length_singleton,
      List.length_singleton]
  · rw [List.map_append, h.range, List.length_append, List.length_singleton, List.range_succ]
    rfl
  · rw [hoffs, List.map_append, List.flatten_append, List.length_append, ← h.offs,
      List.map_singleton, List.flatten_singleton]
    exact congrArg (s.offs + ·) hlength.symm
  · rw [List.map_append, List.map_singleton, Linked.concat_iff]
    refine ⟨?_, ?_, ?_⟩
    · have hlinked := h.linked
      rw [if_neg hlt.ne, h.index] at hlinked
      refine hlinked.congr ?_ ?_
      · exact fun k hk => by rw [prevOf, hold k hk, prevOf]
      · exact fun k hk => by rw [nextOf, hold k hk, nextOf]
    · rw [prevOf, hnew, h.range, List.getLast?_range, Option.or_none, h.index]
      rfl
    · rw [nextOf, hnew, hindex]
      rfl
  · refine laid_append_iff.mpr ⟨h.laid.congr ?_, ⟨_, hnew, ?_, ?_, ?_⟩, trivial⟩
    · intro cell hcell sym hsym
      exact ⟨sym, (hold cell.1 (List.mem_map_of_mem hcell)).trans hsym, rfl, rfl⟩
    · rw [Nat.zero_add, ← h.offs]
    · rw [hlength]
    · rw [← List.length_pos_iff, hlength]
      omega
  · rw [List.map_append, List.append_assoc, ← h.chars, hchars, hoffs]
    rfl

/-- The whole text is split. -/
theorem splitChars_spec (hne : text ≠ []) :
    ∃ s cells, (splitChars text).run { symbols := [], index := 0, offs := 0 } = some s ∧
      Chain text s.symbols cells ∧ cells.map Prod.snd = chars text ∧
      cells.map Prod.fst = List.range cells.length ∧ s.symbols.length = cells.length := by
  have hbody : ∀ s, (∃ cells, Splitting text s cells) → (splitChars text).guard s = true →
      ∃ t, (splitChars text).body s = some t ∧ ∃ cells, Splitting text t cells := by
    rintro s ⟨cells, hs⟩ hguard
    obtain ⟨t, cells', ht, hsplit⟩ := hs.step (of_decide_eq_true hguard)
    exact ⟨t, ht, cells', hsplit⟩
  obtain ⟨s, hrun, ⟨cells, hs⟩, hend⟩ := (splitChars text).run_spec hbody ⟨[], splitting_init⟩
  have hge : text.length ≤ s.offs := not_lt.mp (of_decide_eq_false hend)
  have hpieces : cells.map Prod.snd = chars text := by
    have hchars := hs.chars
    rw [List.drop_eq_nil_of_le hge, chars, List.append_nil] at hchars
    exact hchars
  have hspelled : (cells.map Prod.snd).flatten = text := hpieces ▸ flatten_chars text
  have hoffs : s.offs = text.length := hspelled ▸ hs.offs
  have hlinked := hs.linked
  rw [if_pos hoffs] at hlinked
  refine ⟨s, cells, hrun, ⟨hlinked, ?_, ?_, ?_, hs.laid, hspelled⟩, hpieces, hs.range, hs.symbols⟩
  · rw [hs.range, List.head?_range, if_neg]
    rintro hzero
    rw [List.length_eq_zero_iff.mp hzero] at hspelled
    exact hne hspelled.symm
  · rw [hs.range]
    exact List.pairwise_lt_range
  · intro k sym hsym hk
    rw [hs.range, List.mem_range, ← hs.symbols] at hk
    exact absurd (List.getElem?_eq_some_iff.mp hsym).1 hk

/-! ## The tokens -/

variable (vocab : LlamaVocab Score)

/-- Following the chain gives the tokens of the pieces. -/
theorem outputChain_spec {symbols : List LlamaSpSymbol} {left right : List (Nat × Token)}
    (hchain : Chain text symbols (left ++ right)) {fuel : Nat} (hfuel : right.length ≤ fuel) :
    outputChain vocab text symbols fuel (right.map Prod.fst).head? =
      some ((right.map Prod.snd).flatMap (outputSymbol vocab)) := by
  induction right generalizing left fuel with
  | nil => cases fuel <;> rfl
  | cons cell right ih =>
    obtain ⟨fuel, rfl⟩ : ∃ m, fuel = m + 1 := ⟨fuel - 1, by rw [List.length_cons] at hfuel; omega⟩
    obtain ⟨sym, hsym, htext, hn, -⟩ := hchain.getElem?
    have hnext := hchain.prev_next.2
    rw [nextOf, hsym, Option.bind_some] at hnext
    have hstr : substring text sym.text sym.n = some cell.2 := by
      have hspelled := hchain.spelled
      rw [List.map_append, List.map_cons, List.flatten_append, List.flatten_cons] at hspelled
      rw [htext, hn, ← hspelled]
      exact substring_of_split
    have hrest := ih (List.append_cons left cell right ▸ hchain) (Nat.le_of_succ_le_succ hfuel)
    rw [List.map_cons, List.head?_cons, outputChain]
    simp only [hsym, hstr, hnext, hrest, Option.bind_eq_bind, Option.bind_some, List.map_cons,
      List.flatMap_cons]

/-- There are not more pieces than symbols. -/
theorem Chain.length_le {symbols : List LlamaSpSymbol} {cells : List (Nat × Token)}
    (h : Chain text symbols cells) : cells.length ≤ symbols.length := by
  have hsubset : cells.map Prod.fst ⊆ List.range symbols.length := by
    intro k hk
    obtain ⟨sym, hsym⟩ := h.exists_sym hk
    exact List.mem_range.mpr (List.getElem?_eq_some_iff.mp hsym).1
  have hle := (List.subperm_of_subset h.nodup hsubset).length_le
  rwa [List.length_map, List.length_range] at hle

/-! ## Seeding -/

variable [LinearOrder Score] (queue : PriorityQueue (@LlamaSpBigram.less Score _))

/-- The first rounds of the seeding loop. -/
theorem seed_rounds {symbols : List LlamaSpSymbol} {cells : List (Nat × Token)}
    (hchain : Chain text symbols cells) (hrange : cells.map Prod.fst = List.range cells.length)
    (m : Nat) (hm : m ≤ cells.length - 1) :
    ∃ storage, (List.range m).foldlM
        (fun t i => tryAddBigram queue vocab text t (some i) (some (i + 1)))
        { symbols, workQueue := [] } = some { symbols, workQueue := storage } ∧
      ∀ b, b ∈ storage ↔ ∃ i < m, ∃ c d, cells[i]? = some c ∧ cells[i + 1]? = some d ∧
        pairBigram vocab c d = some b := by
  induction m with
  | zero => exact ⟨[], rfl, by simp⟩
  | succ m ih =>
    obtain ⟨storage, hfold, hmem⟩ := ih (by omega)
    obtain ⟨c, hc⟩ : ∃ c, cells[m]? = some c := ⟨_, List.getElem?_eq_getElem (by omega)⟩
    obtain ⟨d, hd⟩ : ∃ d, cells[m + 1]? = some d := ⟨_, List.getElem?_eq_getElem (by omega)⟩
    have hindex : ∀ k (cell : Nat × Token), cells[k]? = some cell → cell.1 = k := by
      intro k cell hcell
      have hk := congrArg (·[k]?) hrange
      simp only [List.getElem?_map, hcell, Option.map_some] at hk
      rw [List.getElem?_range (List.getElem?_eq_some_iff.mp hcell).1, Option.some.injEq] at hk
      exact hk
    obtain ⟨left, right, hcells⟩ := pair_infix_iff_getElem?.mpr ⟨m, hc, hd⟩
    rw [List.append_assoc] at hcells
    obtain ⟨storage', hadd, hmem'⟩ := tryAddBigram_pair vocab queue
      (t := { symbols, workQueue := storage }) (hcells ▸ hchain)
    rw [hindex m c hc, hindex (m + 1) d hd] at hadd
    refine ⟨storage', ?_, fun b => ?_⟩
    · rw [List.range_succ, List.foldlM_append, hfold]
      simp only [Option.bind_eq_bind, Option.bind_some, List.foldlM_cons, List.foldlM_nil, hadd,
        Option.pure_def]
    · rw [hmem', hmem]
      constructor
      · rintro (⟨i, hi, hpair⟩ | hpair)
        · exact ⟨i, by omega, hpair⟩
        · exact ⟨m, by omega, c, d, hc, hd, hpair⟩
      · rintro ⟨i, hi, c', d', hc', hd', hpair⟩
        rcases Nat.lt_succ_iff_lt_or_eq.mp hi with hlt | rfl
        · exact .inl ⟨i, hlt, c', d', hc', hd', hpair⟩
        · cases hc.symm.trans hc'
          cases hd.symm.trans hd'
          exact .inr hpair

/-- After the seeding the queue has the entries of all neighbours. -/
theorem seed_spec {symbols : List LlamaSpSymbol} {cells : List (Nat × Token)}
    (hchain : Chain text symbols cells) (hrange : cells.map Prod.fst = List.range cells.length)
    (hlength : symbols.length = cells.length) :
    ∃ storage, seed queue vocab text symbols = some { symbols, workQueue := storage } ∧
      Queued vocab text symbols cells storage := by
  obtain ⟨storage, hfold, hmem⟩ :=
    seed_rounds vocab queue hchain hrange (cells.length - 1) (le_refl _)
  refine ⟨storage, by rw [seed, hlength, hfold], ?_, ?_⟩
  · intro b hb
    obtain ⟨i, -, c, d, hc, hd, hpair⟩ := (hmem b).mp hb
    obtain ⟨left, right, rfl⟩ := pair_infix_iff_getElem?.mpr ⟨i, hc, hd⟩
    rw [List.append_assoc] at hchain
    exact .of_pair hchain hpair
  · intro c d hadj b hpair
    obtain ⟨i, hc, hd⟩ := pair_infix_iff_getElem?.mp hadj
    have hlt := (List.getElem?_eq_some_iff.mp hd).1
    exact (hmem b).mpr ⟨i, by omega, c, d, hc, hd, hpair⟩

/-! ## Merging until the queue is empty -/

/-- **The whole loop joins the pieces greedily until no neighbours can be joined.** -/
theorem substitutions_spec {t : LlamaTokenizer Score} {cells : List (Nat × Token)}
    (hchain : Chain text t.symbols cells) (hqueued : Queued vocab text t.symbols cells t.workQueue) :
    ∃ t' cells', (substitutions queue vocab text).run t = some t' ∧ Chain text t'.symbols cells' ∧
      ReflTransGen (JoinsBest vocab.scoreOf) (cells.map Prod.snd) (cells'.map Prod.snd) ∧
      Stuck vocab.scoreOf (cells'.map Prod.snd) := by
  let Reached (t : LlamaTokenizer Score) : Prop := ∃ cells', Chain text t.symbols cells' ∧
    Queued vocab text t.symbols cells' t.workQueue ∧
      ReflTransGen (JoinsBest vocab.scoreOf) (cells.map Prod.snd) (cells'.map Prod.snd)
  have hbody : ∀ s, Reached s → (substitutions queue vocab text).guard s = true →
      ∃ s', (substitutions queue vocab text).body s = some s' ∧ Reached s' := by
    rintro s ⟨cells', hchain', hqueued', hjoined⟩ hguard
    have hne : s.workQueue ≠ [] := by
      intro hnil
      have hempty : (!s.workQueue.isEmpty) = true := hguard
      rw [hnil] at hempty
      cases hempty
    obtain ⟨s', cells'', hstep, hchain'', hqueued'', hcase⟩ :=
      substitute_step queue hchain' hqueued' hne
    refine ⟨s', hstep, cells'', hchain'', hqueued'', ?_⟩
    rcases hcase with rfl | hjoins
    · exact hjoined
    · exact hjoined.tail hjoins
  obtain ⟨t', hrun, ⟨cells', hchain', hqueued', hjoined⟩, hend⟩ :=
    (substitutions queue vocab text).run_spec hbody ⟨cells, hchain, hqueued, .refl⟩
  refine ⟨t', cells', hrun, hchain', hjoined, ?_⟩
  intro left a b right heq
  obtain ⟨left₁, rest₁, rfl, rfl, hrest₁⟩ := List.map_eq_append_iff.mp heq
  obtain ⟨c, rest₂, rfl, rfl, hrest₂⟩ := List.map_eq_cons_iff.mp hrest₁
  obtain ⟨d, right₁, rfl, rfl, -⟩ := List.map_eq_cons_iff.mp hrest₂
  cases hscore : vocab.scoreOf (c.2 ++ d.2) with
  | none => rfl
  | some score =>
    have hmem := hqueued'.complete c d ⟨left₁, right₁, by simp⟩
      ⟨c.1, d.1, score, (c.2 ++ d.2).length⟩ (by rw [pairBigram, hscore, Option.map_some])
    have hempty : t'.workQueue.isEmpty = true := Bool.not_eq_eq_eq_not.mp hend
    rw [List.isEmpty_iff.mp hempty] at hmem
    cases hmem

/-! ## The whole -/

/-- The pieces of a text, joined greedily as long as neighbours are a token. -/
def Greedy (vocab : LlamaVocab Score) (text : Token) (pieces : List Token) : Prop :=
  ReflTransGen (JoinsBest vocab.scoreOf) (chars text) pieces ∧ Stuck vocab.scoreOf pieces

theorem tokenize_spec (hne : text ≠ []) :
    ∃ pieces, Greedy vocab text pieces ∧
      tokenize queue vocab text = some (pieces.flatMap (outputSymbol vocab)) := by
  obtain ⟨s, cells, hsplit, hchain, hpieces, hrange, hlength⟩ := splitChars_spec hne
  obtain ⟨storage, hseed, hqueued⟩ := seed_spec vocab queue hchain hrange hlength
  obtain ⟨t, cells', hrun, hchain', hjoined, hstuck⟩ :=
    substitutions_spec vocab queue (t := { symbols := s.symbols, workQueue := storage }) hchain
      hqueued
  have hwhole : Chain text t.symbols ([] ++ cells') := hchain'
  have houtput := outputChain_spec vocab hwhole hchain'.length_le
  rw [hchain'.first] at houtput
  refine ⟨cells'.map Prod.snd, ⟨hpieces ▸ hjoined, hstuck⟩, ?_⟩
  simp only [tokenize, hsplit, hseed, hrun, houtput, Option.bind_eq_bind, Option.bind_some]

end Kaede.LlamaCpp
