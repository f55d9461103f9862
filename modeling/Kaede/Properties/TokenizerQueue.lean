import Kaede.Properties.TokenizerChain

/-!
# The work queue of the tokenizer

Every entry of the work queue was right when it was made, and stays so as long as neither of its
symbols is merged: its text starts where its left symbol starts, and that never changes. So an
entry that passes the check of its size is the pair of neighbours it was made for.

* `substitute_step` — one round merges the best neighbours, or changes nothing but the queue
-/

namespace Kaede.LlamaCpp

open Infra

variable {Score : Type} {vocab : LlamaVocab Score} {text : Token}
  {symbols symbols' : List LlamaSpSymbol} {cells left right : List (Nat × Token)}
  {t : LlamaTokenizer Score} {b : LlamaSpBigram Score} {c d : Nat × Token}

/-- The entry for two neighbours, if the vocabulary can merge them. -/
def pairBigram (vocab : LlamaVocab Score) (c d : Nat × Token) : Option (LlamaSpBigram Score) :=
  (vocab.scoreOf (c.2 ++ d.2)).map fun score =>
    { left := c.1, right := d.1, score, size := (c.2 ++ d.2).length }

theorem pairBigram_eq_some (h : pairBigram vocab c d = some b) :
    vocab.scoreOf (c.2 ++ d.2) = some b.score ∧ b.left = c.1 ∧ b.right = d.1 ∧
      b.size = (c.2 ++ d.2).length := by
  obtain ⟨score, hscore, rfl⟩ := Option.map_eq_some_iff.mp h
  exact ⟨hscore, rfl, rfl, rfl⟩

/-! ## What the entries say -/

/-- What stays true of an entry while its symbols are merged with others. -/
structure Sound (vocab : LlamaVocab Score) (text : Token) (symbols : List LlamaSpSymbol)
    (b : LlamaSpBigram Score) : Prop where
  ordered : b.left < b.right
  right : ∃ sym, symbols[b.right]? = some sym
  scored : ∃ sym str, symbols[b.left]? = some sym ∧ substring text sym.text b.size = some str ∧
    vocab.scoreOf str = some b.score
  between : ∀ k sym, b.left < k → k < b.right → symbols[k]? = some sym → sym.n = 0

/-- The queue holds what is right, and the entry of every two neighbours. -/
structure Queued (vocab : LlamaVocab Score) (text : Token) (symbols : List LlamaSpSymbol)
    (cells : List (Nat × Token)) (storage : List (LlamaSpBigram Score)) : Prop where
  sound : ∀ b ∈ storage, Sound vocab text symbols b
  complete : ∀ c d, [c, d] <:+: cells → ∀ b, pairBigram vocab c d = some b → b ∈ storage

theorem Sound.of_pair (h : Chain text symbols (left ++ c :: d :: right))
    (hb : pairBigram vocab c d = some b) : Sound vocab text symbols b := by
  obtain ⟨hscore, hleft, hright, hsize⟩ := pairBigram_eq_some hb
  obtain ⟨leftSym, hleftSym, htext, -⟩ := h.getElem?
  obtain ⟨rightSym, hrightSym, -⟩ := (List.append_cons left c (d :: right) ▸ h).getElem?
  refine ⟨?_, ⟨rightSym, hright ▸ hrightSym⟩, ⟨leftSym, c.2 ++ d.2, hleft ▸ hleftSym, ?_, hscore⟩, ?_⟩
  · have hsorted := h.sorted
    simp only [List.map_append, List.map_cons] at hsorted
    rw [hleft, hright]
    exact (List.pairwise_cons.mp (List.pairwise_append.mp hsorted).2.1).1 _ List.mem_cons_self
  · rw [htext, hsize]
    exact h.substring_pair
  · intro k sym hk hk' hsym
    exact h.merged_between (hleft ▸ hk) (hright ▸ hk') hsym

theorem Sound.merged (h : Sound vocab text symbols b) {i j : Nat} {leftSym rightSym : LlamaSpSymbol}
    (hi : symbols[i]? = some leftSym) (hin : leftSym.n ≠ 0)
    (hget : ∀ k, symbols'[k]? = (symbols[k]?).map (mergedSymbol i j leftSym rightSym k)) :
    Sound vocab text symbols' b := by
  obtain ⟨hordered, ⟨rsym, hrsym⟩, ⟨lsym, str, hlsym, hstr, hscore⟩, hbetween⟩ := h
  refine ⟨hordered, ⟨_, by rw [hget, hrsym]; rfl⟩,
    ⟨mergedSymbol i j leftSym rightSym b.left lsym, str, by rw [hget, hlsym]; rfl, hstr, hscore⟩, ?_⟩
  intro k sym hk hk' hsym
  rw [hget] at hsym
  obtain ⟨sym₀, hsym₀, rfl⟩ := Option.map_eq_some_iff.mp hsym
  have hzero := hbetween k sym₀ hk hk' hsym₀
  have hki : k ≠ i := by
    rintro rfl
    rw [hi] at hsym₀
    exact hin (Option.some.inj hsym₀ ▸ hzero)
  simp [mergedSymbol, hki, hzero]

/-- The entry of two neighbours passes the check of its size. -/
theorem pair_passes (h : Chain text symbols cells) (hcd : [c, d] <:+: cells)
    (hb : pairBigram vocab c d = some b) :
    ∃ leftSym rightSym, symbols[b.left]? = some leftSym ∧ symbols[b.right]? = some rightSym ∧
      leftSym.n ≠ 0 ∧ rightSym.n ≠ 0 ∧ leftSym.n + rightSym.n = b.size := by
  obtain ⟨left, right, rfl⟩ := hcd
  rw [List.append_assoc] at h
  obtain ⟨-, hleft, hright, hsize⟩ := pairBigram_eq_some hb
  obtain ⟨leftSym, hleftSym, -, hleftn, hc⟩ := h.getElem?
  obtain ⟨rightSym, hrightSym, -, hrightn, hd⟩ := (List.append_cons left c _ ▸ h).getElem?
  refine ⟨leftSym, rightSym, hleft ▸ hleftSym, hright ▸ hrightSym, ?_, ?_, ?_⟩
  · exact hleftn ▸ fun hzero => hc (List.length_eq_zero_iff.mp hzero)
  · exact hrightn ▸ fun hzero => hd (List.length_eq_zero_iff.mp hzero)
  · rw [hleftn, hrightn, hsize, List.length_append]

/-- An entry that passes the check is the entry of two neighbours. -/
theorem exists_pair_of_passes {leftSym rightSym : LlamaSpSymbol} (hchain : Chain text symbols cells)
    (hsound : Sound vocab text symbols b) (hleft : symbols[b.left]? = some leftSym)
    (hright : symbols[b.right]? = some rightSym) (hleftn : leftSym.n ≠ 0) (hrightn : rightSym.n ≠ 0)
    (hsize : leftSym.n + rightSym.n = b.size) :
    ∃ left c d right, cells = left ++ c :: d :: right ∧ pairBigram vocab c d = some b := by
  obtain ⟨left, p, q, right, rfl⟩ :=
    hchain.exists_pair hsound.ordered hleft hright hleftn hrightn hsound.between
  refine ⟨left, (b.left, p), (b.right, q), right, rfl, ?_⟩
  obtain ⟨sym, str, hsym, hstr, hscore⟩ := hsound.scored
  cases hleft.symm.trans hsym
  obtain ⟨sym, hsym, htext, hn, -⟩ := hchain.getElem?
  cases hleft.symm.trans hsym
  obtain ⟨sym, hsym, -, hn', -⟩ := (List.append_cons left (b.left, p) _ ▸ hchain).getElem?
  cases hright.symm.trans hsym
  have hlength : b.size = (p ++ q).length := by rw [← hsize, hn, hn', List.length_append]
  rw [htext, hlength, hchain.substring_pair, Option.some.injEq] at hstr
  rw [pairBigram, hstr, hscore, Option.map_some, ← hstr, ← hlength]

/-! ## Adding an entry -/

variable [LinearOrder Score] {queue : PriorityQueue (@LlamaSpBigram.less Score _)}

section Adding

variable (queue vocab)

/-- **Trying to add two neighbours** adds their entry, if they have one. -/
theorem tryAddBigram_pair (h : Chain text t.symbols (left ++ c :: d :: right)) :
    ∃ storage, tryAddBigram queue vocab text t (some c.1) (some d.1) =
        some { t with workQueue := storage } ∧
      ∀ b, b ∈ storage ↔ b ∈ t.workQueue ∨ pairBigram vocab c d = some b := by
  obtain ⟨leftSym, hleft, htext, hleftn, -⟩ := h.getElem?
  obtain ⟨rightSym, hright, -, hrightn, -⟩ := (List.append_cons left c (d :: right) ▸ h).getElem?
  have hboth : substring text leftSym.text (leftSym.n + rightSym.n) = some (c.2 ++ d.2) := by
    rw [htext, hleftn, hrightn, ← List.length_append]
    exact h.substring_pair
  simp only [tryAddBigram, hleft, hright, hboth, Option.bind_eq_bind, Option.bind_some]
  cases hid : vocab.tokenToId (c.2 ++ d.2) with
  | none =>
    refine ⟨t.workQueue, rfl, fun b => ?_⟩
    simp [pairBigram, LlamaVocab.scoreOf, hid]
  | some id =>
    simp only
    cases hscore : vocab.idToToken[id]? with
    | none =>
      refine ⟨t.workQueue, rfl, fun b => ?_⟩
      simp [pairBigram, LlamaVocab.scoreOf, hid, hscore]
    | some tokScore =>
      refine ⟨_, rfl, fun b => ?_⟩
      rw [queue.mem_push, or_comm]
      simp [pairBigram, LlamaVocab.scoreOf, hid, hscore, eq_comm]

/-- With the symbol before, if there is one. -/
theorem tryAddBigram_prev (h : Chain text t.symbols (left ++ c :: right)) :
    ∃ storage, tryAddBigram queue vocab text t (left.map Prod.fst).getLast? (some c.1) =
        some { t with workQueue := storage } ∧
      ∀ b, b ∈ storage ↔
        b ∈ t.workQueue ∨ ∃ a, left.getLast? = some a ∧ pairBigram vocab a c = some b := by
  cases left using List.reverseRecOn with
  | nil => exact ⟨t.workQueue, rfl, fun b => by simp⟩
  | append_singleton left a =>
    rw [← List.append_cons] at h
    obtain ⟨storage, hadd, hmem⟩ := tryAddBigram_pair vocab queue h
    refine ⟨storage, ?_, fun b => ?_⟩
    · rw [List.map_append, List.map_singleton, List.getLast?_concat]
      exact hadd
    · rw [hmem b, List.getLast?_concat]
      simp

/-- With the symbol behind, if there is one. -/
theorem tryAddBigram_next (h : Chain text t.symbols (left ++ c :: right)) :
    ∃ storage, tryAddBigram queue vocab text t (some c.1) (right.map Prod.fst).head? =
        some { t with workQueue := storage } ∧
      ∀ b, b ∈ storage ↔
        b ∈ t.workQueue ∨ ∃ d, right.head? = some d ∧ pairBigram vocab c d = some b := by
  cases right with
  | nil => exact ⟨t.workQueue, rfl, fun b => by simp⟩
  | cons d right =>
    obtain ⟨storage, hadd, hmem⟩ := tryAddBigram_pair vocab queue h
    exact ⟨storage, hadd, fun b => by rw [hmem b, List.head?_cons]; simp⟩

end Adding

/-! ## One round -/

theorem less_eq_false_iff {l r : LlamaSpBigram Score} :
    l.less r = false ↔ r.score ≤ l.score ∧ (l.score = r.score → l.left ≤ r.left) := by
  rw [LlamaSpBigram.less, Bool.or_eq_false_iff, Bool.and_eq_false_imp, decide_eq_false_iff_not,
    not_lt]
  simp

theorem less_self (l : LlamaSpBigram Score) : l.less l = false :=
  less_eq_false_iff.mpr ⟨le_refl _, fun _ => le_refl _⟩

/-- In the chain what comes first has the lower index. -/
theorem Chain.length_le_of_le {left' right' : List (Nat × Token)}
    (h : Chain text symbols (left ++ c :: right)) (heq : left ++ c :: right = left' ++ d :: right')
    (hle : c.1 ≤ d.1) : left.length ≤ left'.length := by
  rcases List.append_eq_append_iff.mp heq with ⟨between, rfl, -⟩ | ⟨between, rfl, hbetween⟩
  · rw [List.length_append]
    exact Nat.le_add_right _ _
  · cases between with
    | nil => rw [List.append_nil]
    | cons d' between =>
      obtain ⟨rfl, -⟩ := List.cons.inj hbetween
      have hsorted := h.sorted
      simp only [List.map_append, List.map_cons] at hsorted
      have hlt := (List.pairwise_append.mp hsorted).2.2 d.1 (by simp) c.1 List.mem_cons_self
      exact absurd hle (not_le.mpr hlt)

/-- **What comes out of the queue and passes the check is the best of all neighbours.** -/
theorem joinsBest_of_pop {storage rest : List (LlamaSpBigram Score)}
    (hchain : Chain text symbols (left ++ c :: d :: right))
    (hqueued : Queued vocab text symbols (left ++ c :: d :: right) storage)
    (hpop : queue.pop storage = some (b, rest)) (hb : pairBigram vocab c d = some b) :
    JoinsBest vocab.scoreOf ((left ++ c :: d :: right).map Prod.snd)
      ((left ++ (c.1, c.2 ++ d.2) :: right).map Prod.snd) := by
  obtain ⟨hscore, hleft, -, -⟩ := pairBigram_eq_some hb
  refine ⟨left.map Prod.snd, c.2, d.2, right.map Prod.snd, b.score, by simp, by simp, hscore, ?_⟩
  intro left' p q right' w heq hw
  obtain ⟨left₁, rest₁, hcells, rfl, hrest₁⟩ := List.map_eq_append_iff.mp heq
  obtain ⟨c', rest₂, rfl, rfl, hrest₂⟩ := List.map_eq_cons_iff.mp hrest₁
  obtain ⟨d', right₁, rfl, rfl, -⟩ := List.map_eq_cons_iff.mp hrest₂
  have hadj : [c', d'] <:+: left ++ c :: d :: right :=
    ⟨left₁, right₁, by rw [hcells]; simp⟩
  have hb' : pairBigram vocab c' d' = some ⟨c'.1, d'.1, w, (c'.2 ++ d'.2).length⟩ := by
    rw [pairBigram, hw, Option.map_some]
  have hmem := hqueued.complete c' d' hadj _ hb'
  have hless := less_eq_false_iff.mp (queue.not_less_of_pop hpop (less_self b) hmem)
  refine ⟨hless.1, fun hweq => ?_⟩
  rw [List.length_map, List.length_map]
  exact hchain.length_le_of_le hcells (hleft ▸ hless.2 hweq.symm)

/-- An entry that is skipped is none of two neighbours. -/
theorem queued_of_skip {storage rest : List (LlamaSpBigram Score)} {leftSym rightSym : LlamaSpSymbol}
    (hchain : Chain text symbols cells) (hqueued : Queued vocab text symbols cells storage)
    (hpop : queue.pop storage = some (b, rest)) (hleft : symbols[b.left]? = some leftSym)
    (hright : symbols[b.right]? = some rightSym)
    (hskip : leftSym.n = 0 ∨ rightSym.n = 0 ∨ leftSym.n + rightSym.n ≠ b.size) :
    Queued vocab text symbols cells rest := by
  refine ⟨fun b' hb' => hqueued.sound b' ((queue.mem_of_pop hpop).mpr (.inr hb')), ?_⟩
  intro c d hcd b' hb'
  rcases (queue.mem_of_pop hpop).mp (hqueued.complete c d hcd b' hb') with rfl | hmem
  · obtain ⟨leftSym', rightSym', hleft', hright', hleftn, hrightn, hsize⟩ :=
      pair_passes hchain hcd hb'
    cases hleft.symm.trans hleft'
    cases hright.symm.trans hright'
    rcases hskip with hzero | hzero | hne
    · exact absurd hzero hleftn
    · exact absurd hzero hrightn
    · exact absurd hsize hne
  · exact hmem

/-- After a merge the queue needs the entries of the merged symbol with its neighbours. -/
theorem queued_of_merge {storage rest storage' : List (LlamaSpBigram Score)}
    {leftSym rightSym : LlamaSpSymbol}
    (hchain : Chain text symbols (left ++ c :: d :: right))
    (hqueued : Queued vocab text symbols (left ++ c :: d :: right) storage)
    (hpop : queue.pop storage = some (b, rest)) (hb : pairBigram vocab c d = some b)
    (hleft : symbols[c.1]? = some leftSym) (hleftn : leftSym.n ≠ 0)
    (hget : ∀ k, symbols'[k]? = (symbols[k]?).map (mergedSymbol c.1 d.1 leftSym rightSym k))
    (hchain' : Chain text symbols' (left ++ (c.1, c.2 ++ d.2) :: right))
    (hmem : ∀ b, b ∈ storage' ↔ (b ∈ rest ∨
      ∃ a, left.getLast? = some a ∧ pairBigram vocab a (c.1, c.2 ++ d.2) = some b) ∨
        ∃ a, right.head? = some a ∧ pairBigram vocab (c.1, c.2 ++ d.2) a = some b) :
    Queued vocab text symbols' (left ++ (c.1, c.2 ++ d.2) :: right) storage' := by
  obtain ⟨-, hdistinct, hdistinct'⟩ := hchain.pair_distinct
  obtain ⟨-, hbleft, -, -⟩ := pairBigram_eq_some hb
  -- an entry with another left symbol was not popped
  have hkeep : ∀ a a' b', [a, a'] <:+: left ++ c :: d :: right → a.1 ≠ c.1 →
      pairBigram vocab a a' = some b' → b' ∈ rest := by
    intro a a' b' hadj hne hb'
    rcases (queue.mem_of_pop hpop).mp (hqueued.complete a a' hadj b' hb') with rfl | hrest
    · exact absurd ((pairBigram_eq_some hb').2.1.symm.trans hbleft) hne
    · exact hrest
  constructor
  · intro b' hb'
    rcases (hmem b').mp hb' with (hrest | ⟨a, ha, hab⟩) | ⟨a, ha, hab⟩
    · exact (hqueued.sound b' ((queue.mem_of_pop hpop).mpr (.inr hrest))).merged hleft hleftn hget
    · obtain ⟨left', rfl⟩ := List.getLast?_eq_some_iff.mp ha
      rw [List.append_assoc] at hchain'
      exact .of_pair hchain' hab
    · obtain ⟨right', rfl⟩ := List.head?_eq_some_iff.mp ha
      exact .of_pair hchain' hab
  · intro a a' hadj b' hb'
    rw [hmem]
    rcases pair_infix_append_iff.mp hadj with hadj | ⟨hlast, hhead⟩ | hadj
    · refine .inl (.inl (hkeep a a' b' (List.infix_append_of_infix_left hadj) ?_ hb'))
      exact (hdistinct a.1 (List.mem_map_of_mem (hadj.subset List.mem_cons_self))).1
    · rw [List.head?_cons, Option.some.injEq] at hhead
      exact .inl (.inr ⟨a, hlast, hhead ▸ hb'⟩)
    · rcases pair_infix_cons_iff.mp hadj with ⟨rfl, hhead⟩ | hadj
      · exact .inr ⟨a', hhead, hb'⟩
      · refine .inl (.inl (hkeep a a' b' ?_ ?_ hb'))
        · exact List.infix_append_of_infix_right (List.infix_cons (List.infix_cons hadj))
        · exact (hdistinct' a.1 (List.mem_map_of_mem (hadj.subset List.mem_cons_self))).1

variable (queue) in
/-- **One round.** It never fails while the queue holds something, and either joins the best
neighbours or leaves the pieces as they are. -/
theorem substitute_step (hchain : Chain text t.symbols cells)
    (hqueued : Queued vocab text t.symbols cells t.workQueue) (hne : t.workQueue ≠ []) :
    ∃ t' cells', substitute queue vocab text t = some t' ∧ Chain text t'.symbols cells' ∧
      Queued vocab text t'.symbols cells' t'.workQueue ∧
      (cells' = cells ∨
        JoinsBest vocab.scoreOf (cells.map Prod.snd) (cells'.map Prod.snd)) := by
  obtain ⟨⟨b, rest⟩, hpop⟩ := Option.isSome_iff_exists.mp (queue.pop_isSome t.workQueue hne)
  have hsound := hqueued.sound b ((queue.mem_of_pop hpop).mpr (.inl rfl))
  obtain ⟨leftSym, -, hleft, -⟩ := hsound.scored
  obtain ⟨rightSym, hright⟩ := hsound.right
  by_cases hskip : leftSym.n = 0 ∨ rightSym.n = 0 ∨ leftSym.n + rightSym.n ≠ b.size
  · refine ⟨{ t with workQueue := rest }, cells, ?_, hchain,
      queued_of_skip hchain hqueued hpop hleft hright hskip, .inl rfl⟩
    simp only [substitute, hpop, hleft, hright, Option.bind_eq_bind, Option.bind_some, if_pos hskip]
  · have hpass := hskip
    simp only [not_or, Decidable.not_not] at hpass
    obtain ⟨hleftn, hrightn, hsize⟩ := hpass
    obtain ⟨left, c, d, right, rfl, hb⟩ :=
      exists_pair_of_passes hchain hsound hleft hright hleftn hrightn hsize
    obtain ⟨-, hbleft, hbright, -⟩ := pairBigram_eq_some hb
    rw [hbleft] at hleft
    rw [hbright] at hright
    obtain ⟨symbols', hmerge, hget, hchain'⟩ := hchain.merge hleft hright
    obtain ⟨leftSym', hleft', -⟩ := hchain'.getElem?
    have hlinks := hchain'.prev_next
    rw [prevOf, nextOf, hleft', Option.bind_some, Option.bind_some] at hlinks
    obtain ⟨storage₁, hadd₁, hmem₁⟩ := tryAddBigram_prev vocab queue
      (t := { symbols := symbols', workQueue := rest }) hchain'
    obtain ⟨storage₂, hadd₂, hmem₂⟩ := tryAddBigram_next vocab queue
      (t := { symbols := symbols', workQueue := storage₁ }) hchain'
    refine ⟨{ symbols := symbols', workQueue := storage₂ }, left ++ (c.1, c.2 ++ d.2) :: right, ?_,
      hchain', ?_, .inr (joinsBest_of_pop hchain hqueued hpop hb)⟩
    · simp only [substitute, hpop, hbleft, hbright, hleft, hright, Option.bind_eq_bind,
        Option.bind_some, if_neg hskip, hmerge, hleft', hlinks.1, hlinks.2, hadd₁, hadd₂]
    · refine queued_of_merge hchain hqueued hpop hb hleft hleftn hget hchain' fun b' => ?_
      rw [hmem₂ b', hmem₁ b']

end Kaede.LlamaCpp
