import Kaede.Infra.LinkedList
import Kaede.Infra.GreedyJoin
import Kaede.Infra.Infix
import Kaede.LlamaCpp.Tokenizer

/-!
# The chain of symbols

While the tokenizer works, the symbols that are left are linked in the order of the text, each one
stands where the one before it ends, and the symbols between two neighbours are empty. The work
queue has an entry for every pair of neighbours that the vocabulary can merge, and every other
entry is one that will be skipped.

* `Chain` — what holds of the symbols, for a list of pieces of the text
* `Queued` — what holds of the work queue
-/

namespace Kaede.LlamaCpp

open Infra

/-! ## Pieces of the text -/

/-- The characters of a text. At the end of the text the last one may be cut off. -/
def chars : Token → List Token
  | [] => []
  | src :: text => (src :: text.take (utf8Len src - 1)) :: chars (text.drop (utf8Len src - 1))
termination_by text => text.length

theorem chars_ne_nil {text : Token} : ∀ piece ∈ chars text, piece ≠ [] := by
  induction text using chars.induct with
  | case1 =>
    rw [chars]
    exact fun piece hpiece => absurd hpiece List.not_mem_nil
  | case2 src text ih =>
    rw [chars]
    intro piece hpiece
    rcases List.mem_cons.mp hpiece with rfl | hpiece
    · exact List.cons_ne_nil _ _
    · exact ih piece hpiece

theorem flatten_chars (text : Token) : (chars text).flatten = text := by
  induction text using chars.induct with
  | case1 => rw [chars, List.flatten_nil]
  | case2 src text ih =>
    rw [chars, List.flatten_cons, ih, List.cons_append, List.take_append_drop]

/-- The first character, as the loop of the tokenizer cuts it off. -/
theorem chars_drop {text : Token} {offs : Nat} {src : UInt8} (h : text[offs]? = some src) :
    chars (text.drop offs) =
      (text.drop offs).take (min (text.length - offs) (utf8Len src)) ::
        chars (text.drop (offs + min (text.length - offs) (utf8Len src))) := by
  obtain ⟨hlt, hget⟩ := List.getElem?_eq_some_iff.mp h
  have hcons : text.drop offs = src :: text.drop (offs + 1) := by
    rw [← hget, List.getElem_cons_drop]
  have hlength : text.length - offs = (text.drop (offs + 1)).length + 1 := by
    rw [List.length_drop]
    omega
  obtain ⟨m, hm⟩ := Nat.exists_eq_succ_of_ne_zero (utf8Len_pos src).ne'
  rw [← List.drop_drop, hcons, hm, hlength, Nat.succ_eq_add_one, Nat.add_min_add_right,
    List.take_succ_cons, List.drop_succ_cons, chars, hm, Nat.succ_sub_one, Nat.min_comm,
    ← List.take_eq_take_min, ← List.drop_eq_drop_min]

/-- The score of a text that is a token. -/
def LlamaVocab.scoreOf {Score : Type} (vocab : LlamaVocab Score) (str : Token) : Option Score :=
  (vocab.tokenToId str).bind fun id => (vocab.idToToken[id]?).map (·.score)

theorem substring_of_split {a str b : Token} :
    substring (a ++ (str ++ b)) a.length str.length = some str := by
  rw [substring, if_pos (by simp), List.drop_left, List.take_left]

/-! ## The chain -/

section Chain

def prevOf (symbols : List LlamaSpSymbol) (i : Nat) : Option Nat := (symbols[i]?).bind (·.prev)

def nextOf (symbols : List LlamaSpSymbol) (i : Nat) : Option Nat := (symbols[i]?).bind (·.next)

/-- The symbols hold these pieces of a text, one behind the other from `offs` on. -/
def Laid (symbols : List LlamaSpSymbol) : Nat → List (Nat × Token) → Prop
  | _, [] => True
  | offs, (i, piece) :: cells =>
    (∃ sym, symbols[i]? = some sym ∧ sym.text = offs ∧ sym.n = piece.length ∧ piece ≠ []) ∧
      Laid symbols (offs + piece.length) cells

variable {symbols symbols' : List LlamaSpSymbol} {cells left right : List (Nat × Token)}
  {offs i j : Nat} {text piece p q : Token}

theorem Laid.congr (h : Laid symbols offs cells)
    (hsame : ∀ cell ∈ cells, ∀ sym, symbols[cell.1]? = some sym →
      ∃ sym', symbols'[cell.1]? = some sym' ∧ sym'.text = sym.text ∧ sym'.n = sym.n) :
    Laid symbols' offs cells := by
  induction cells generalizing offs with
  | nil => trivial
  | cons cell cells ih =>
    obtain ⟨⟨sym, hsym, htext, hn, hpiece⟩, hcells⟩ := h
    obtain ⟨sym', hsym', htext', hn'⟩ := hsame cell List.mem_cons_self sym hsym
    exact ⟨⟨sym', hsym', htext'.trans htext, hn'.trans hn, hpiece⟩,
      ih hcells fun cell' hcell' => hsame cell' (List.mem_cons_of_mem cell hcell')⟩

theorem laid_append_iff :
    Laid symbols offs (left ++ right) ↔
      Laid symbols offs left ∧ Laid symbols (offs + (left.map Prod.snd).flatten.length) right := by
  induction left generalizing offs with
  | nil => simp [Laid]
  | cons cell left ih =>
    rw [List.cons_append, Laid, Laid, ih, List.map_cons, List.flatten_cons, List.length_append,
      Nat.add_assoc, and_assoc]

/-- The symbols that are left, with the piece of the text that each one holds. -/
structure Chain (text : Token) (symbols : List LlamaSpSymbol) (cells : List (Nat × Token)) :
    Prop where
  linked : Linked (prevOf symbols) (nextOf symbols) none none (cells.map Prod.fst)
  first : (cells.map Prod.fst).head? = some 0
  sorted : (cells.map Prod.fst).Pairwise (· < ·)
  merged : ∀ i sym, symbols[i]? = some sym → i ∉ cells.map Prod.fst → sym.n = 0
  laid : Laid symbols 0 cells
  spelled : (cells.map Prod.snd).flatten = text

namespace Chain

theorem nodup (h : Chain text symbols cells) : (cells.map Prod.fst).Nodup :=
  h.sorted.imp fun hlt => hlt.ne

/-- Where a piece stands. -/
theorem getElem? (h : Chain text symbols (left ++ (i, p) :: right)) :
    ∃ sym, symbols[i]? = some sym ∧ sym.text = (left.map Prod.snd).flatten.length ∧
      sym.n = p.length ∧ p ≠ [] := by
  obtain ⟨sym, hsym, htext, hn, hp⟩ := (laid_append_iff.mp h.laid).2.1
  exact ⟨sym, hsym, by rw [htext, Nat.zero_add], hn, hp⟩

theorem prev_next (h : Chain text symbols (left ++ (i, p) :: right)) :
    prevOf symbols i = (left.map Prod.fst).getLast? ∧
      nextOf symbols i = (right.map Prod.fst).head? := by
  have hlinked := h.linked
  rw [List.map_append, List.map_cons, Linked.append_iff] at hlinked
  obtain ⟨-, hprev, hnext, -⟩ := hlinked
  rw [Option.or_none] at hprev hnext
  exact ⟨hprev, hnext⟩

theorem substring_pair (h : Chain text symbols (left ++ (i, p) :: (j, q) :: right)) :
    substring text (left.map Prod.snd).flatten.length (p ++ q).length = some (p ++ q) := by
  have hspelled := h.spelled
  simp only [List.map_append, List.map_cons, List.flatten_append, List.flatten_cons] at hspelled
  rw [← hspelled, ← List.append_assoc p q]
  exact substring_of_split

/-- Between two neighbours there is nothing left. -/
theorem merged_between (h : Chain text symbols (left ++ (i, p) :: (j, q) :: right)) {k : Nat}
    {sym : LlamaSpSymbol} (hik : i < k) (hkj : k < j) (hsym : symbols[k]? = some sym) :
    sym.n = 0 := by
  refine h.merged k sym hsym fun hmem => ?_
  have hsorted := h.sorted
  simp only [List.map_append, List.map_cons] at hsorted hmem
  obtain ⟨-, hrest, hleft⟩ := List.pairwise_append.mp hsorted
  obtain ⟨-, hright⟩ := List.pairwise_cons.mp hrest
  rcases List.mem_append.mp hmem with hmem | hmem
  · exact absurd (hleft k hmem i List.mem_cons_self) (by omega)
  · rcases List.mem_cons.mp hmem with rfl | hmem
    · exact absurd hik (lt_irrefl _)
    · rcases List.mem_cons.mp hmem with rfl | hmem
      · exact absurd hkj (lt_irrefl _)
      · exact absurd ((List.pairwise_cons.mp hright).1 k hmem) (by omega)

/-- **Two symbols that are left, with nothing between them, are neighbours.** -/
theorem exists_pair (h : Chain text symbols cells) {leftSym rightSym : LlamaSpSymbol} (hij : i < j)
    (hi : symbols[i]? = some leftSym) (hj : symbols[j]? = some rightSym) (hin : leftSym.n ≠ 0)
    (hjn : rightSym.n ≠ 0) (hbetween : ∀ k sym, i < k → k < j → symbols[k]? = some sym → sym.n = 0) :
    ∃ left p q right, cells = left ++ (i, p) :: (j, q) :: right := by
  have hmem : ∀ k sym, symbols[k]? = some sym → sym.n ≠ 0 → k ∈ cells.map Prod.fst :=
    fun k sym hsym hn => by_contra fun hnot => hn (h.merged k sym hsym hnot)
  obtain ⟨⟨i, p⟩, hcell, rfl⟩ := List.mem_map.mp (hmem i leftSym hi hin)
  obtain ⟨left, rest, rfl⟩ := List.append_of_mem hcell
  have hsorted := h.sorted
  rw [List.map_append, List.map_cons] at hsorted
  obtain ⟨-, hrest, hleft⟩ := List.pairwise_append.mp hsorted
  have hjmem := hmem j rightSym hj hjn
  rw [List.map_append, List.map_cons] at hjmem
  cases rest with
  | nil =>
    rcases List.mem_append.mp hjmem with hjmem | hjmem
    · exact absurd (hleft j hjmem i List.mem_cons_self) (by omega)
    · exact absurd (List.mem_singleton.mp hjmem) hij.ne'
  | cons cell rest =>
    obtain ⟨k, q⟩ := cell
    obtain ⟨hik, hrest'⟩ := List.pairwise_cons.mp hrest
    have hik : i < k := hik k List.mem_cons_self
    -- the next one is not empty, so it does not come before `j`
    have hkj : k = j := by
      rcases lt_trichotomy k j with hlt | rfl | hgt
      · rw [List.append_cons] at h
        obtain ⟨sym, hsym, -, hn, hq⟩ := h.getElem?
        have hzero := hbetween k sym hik hlt hsym
        rw [hn, List.length_eq_zero_iff] at hzero
        exact absurd hzero hq
      · rfl
      · rcases List.mem_append.mp hjmem with hjmem | hjmem
        · exact absurd (hleft j hjmem i List.mem_cons_self) (by omega)
        · rcases List.mem_cons.mp hjmem with rfl | hjmem
          · exact absurd hij (lt_irrefl _)
          · rcases List.mem_cons.mp hjmem with rfl | hjmem
            · rfl
            · exact absurd ((List.pairwise_cons.mp hrest').1 j hjmem) (by omega)
    exact ⟨left, p, q, rest, by rw [hkj]⟩

end Chain

end Chain

/-! ## A merge -/

/-- What merging makes of the symbol at `k`. -/
def mergedSymbol (i j : Nat) (leftSym rightSym : LlamaSpSymbol) (k : Nat) (sym : LlamaSpSymbol) :
    LlamaSpSymbol where
  prev := if rightSym.next = some k then some i else sym.prev
  next := if k = i then rightSym.next else sym.next
  text := sym.text
  n := if k = i then leftSym.n + rightSym.n else if k = j then 0 else sym.n

section Merge

variable {symbols symbols' : List LlamaSpSymbol} {left right : List (Nat × Token)}
  {i j : Nat} {text p q : Token} {leftSym rightSym : LlamaSpSymbol}

theorem getElem?_mergeSymbols (hi : symbols[i]? = some leftSym) (hj : symbols[j]? = some rightSym)
    (hij : i ≠ j)
    (hnext : ∀ m, rightSym.next = some m → m ≠ i ∧ m ≠ j ∧ ∃ sym, symbols[m]? = some sym) :
    ∃ symbols', mergeSymbols symbols i j leftSym rightSym = some symbols' ∧
      ∀ k, symbols'[k]? = (symbols[k]?).map (mergedSymbol i j leftSym rightSym k) := by
  have hilt := (List.getElem?_eq_some_iff.mp hi).1
  have hjlt := (List.getElem?_eq_some_iff.mp hj).1
  unfold mergeSymbols
  simp only
  split
  · next hnone =>
    refine ⟨_, rfl, fun k => ?_⟩
    rw [List.getElem?_set, List.getElem?_set, List.length_set, if_pos hilt, if_pos hjlt]
    by_cases hkj : j = k
    · subst hkj
      simp [hj, mergedSymbol, hnone, hij.symm]
    · by_cases hki : i = k
      · subst hki
        simp [hi, mergedSymbol, hnone, hkj]
      · have hki' : k ≠ i := fun heq => hki heq.symm
        have hkj' : k ≠ j := fun heq => hkj heq.symm
        cases symbols[k]? <;> simp [mergedSymbol, hnone, hki, hkj, hki', hkj']
  · next m hm =>
    obtain ⟨hmi, hmj, nextSym, hnextSym⟩ := hnext m hm
    have hmlt := (List.getElem?_eq_some_iff.mp hnextSym).1
    have hget : ((symbols.set i { leftSym with n := leftSym.n + rightSym.n, next := some m }).set j
        { rightSym with n := 0 })[m]? = some nextSym := by
      rw [List.getElem?_set_ne hmj.symm, List.getElem?_set_ne hmi.symm, hnextSym]
    refine ⟨_, Option.bind_eq_some_iff.mpr ⟨nextSym, by rw [← hget, hm], rfl⟩, fun k => ?_⟩
    rw [List.getElem?_set, List.getElem?_set, List.getElem?_set, List.length_set, List.length_set,
      if_pos hilt, if_pos hjlt, if_pos hmlt]
    by_cases hkm : m = k
    · subst hkm
      simp [hnextSym, mergedSymbol, hm, hmi, hmj]
    · by_cases hkj : j = k
      · subst hkj
        simp [hj, mergedSymbol, hm, hij.symm, hkm]
      · by_cases hki : i = k
        · subst hki
          simp [hi, mergedSymbol, hm, hkj, hkm]
        · have hki' : k ≠ i := fun heq => hki heq.symm
          have hkj' : k ≠ j := fun heq => hkj heq.symm
          cases symbols[k]? <;> simp [mergedSymbol, hm, hki, hkj, hkm, hki', hkj']

theorem nextOf_of_merged {k : Nat}
    (hget : ∀ k, symbols'[k]? = (symbols[k]?).map (mergedSymbol i j leftSym rightSym k))
    (hk : k ≠ i) : nextOf symbols' k = nextOf symbols k := by
  rw [nextOf, nextOf, hget]
  cases symbols[k]? with
  | none => rfl
  | some sym => simp [mergedSymbol, hk]

theorem prevOf_of_merged {k : Nat}
    (hget : ∀ k, symbols'[k]? = (symbols[k]?).map (mergedSymbol i j leftSym rightSym k))
    (hk : rightSym.next ≠ some k) : prevOf symbols' k = prevOf symbols k := by
  rw [prevOf, prevOf, hget]
  cases symbols[k]? with
  | none => rfl
  | some sym => simp [mergedSymbol, hk]

/-- A symbol that is not merged keeps its place and its length. -/
theorem same_of_merged {k : Nat}
    (hget : ∀ k, symbols'[k]? = (symbols[k]?).map (mergedSymbol i j leftSym rightSym k))
    (hi : k ≠ i) (hj : k ≠ j) (sym : LlamaSpSymbol) (hsym : symbols[k]? = some sym) :
    ∃ sym', symbols'[k]? = some sym' ∧ sym'.text = sym.text ∧ sym'.n = sym.n := by
  rw [hget, hsym]
  exact ⟨_, rfl, rfl, by simp [mergedSymbol, hi, hj]⟩

/-- A symbol of the chain exists. -/
theorem Chain.exists_sym {cells : List (Nat × Token)} (h : Chain text symbols cells) {k : Nat}
    (hk : k ∈ cells.map Prod.fst) : ∃ sym, symbols[k]? = some sym := by
  obtain ⟨⟨k, piece⟩, hcell, rfl⟩ := List.mem_map.mp hk
  obtain ⟨left, right, rfl⟩ := List.append_of_mem hcell
  obtain ⟨sym, hsym, -⟩ := h.getElem?
  exact ⟨sym, hsym⟩

/-- Every symbol comes once. -/
theorem Chain.pair_distinct (h : Chain text symbols (left ++ (i, p) :: (j, q) :: right)) :
    i ≠ j ∧ (∀ k ∈ left.map Prod.fst, k ≠ i ∧ k ≠ j) ∧
      ∀ k ∈ right.map Prod.fst, k ≠ i ∧ k ≠ j ∧ k ∉ left.map Prod.fst := by
  have hnodup := h.nodup
  simp only [List.map_append, List.map_cons] at hnodup
  obtain ⟨-, hpair, hdisjoint⟩ := List.nodup_append.mp hnodup
  simp only [List.nodup_cons, List.mem_cons, not_or] at hpair
  obtain ⟨⟨hij, hi⟩, hj, -⟩ := hpair
  refine ⟨hij, fun k hk => ⟨hdisjoint k hk i (by simp), hdisjoint k hk j (by simp)⟩,
    fun k hk => ⟨?_, ?_, ?_⟩⟩
  · exact fun heq => hi (heq ▸ hk)
  · exact fun heq => hj (heq ▸ hk)
  · exact fun hleft => hdisjoint k hleft k (by simp [hk]) rfl

theorem Chain.next_eq_head? (h : Chain text symbols (left ++ (i, p) :: (j, q) :: right))
    (hj : symbols[j]? = some rightSym) : rightSym.next = (right.map Prod.fst).head? := by
  rw [List.append_cons] at h
  rw [← h.prev_next.2, nextOf, hj]
  rfl

theorem Chain.merge_linked (h : Chain text symbols (left ++ (i, p) :: (j, q) :: right))
    (hi : symbols[i]? = some leftSym) (hj : symbols[j]? = some rightSym)
    (hget : ∀ k, symbols'[k]? = (symbols[k]?).map (mergedSymbol i j leftSym rightSym k)) :
    Linked (prevOf symbols') (nextOf symbols') none none
      ((left ++ (i, p ++ q) :: right).map Prod.fst) := by
  obtain ⟨-, hleft, hright⟩ := h.pair_distinct
  have hnextj : nextOf symbols j = rightSym.next := by rw [nextOf, hj]; rfl
  have hmem : ∀ m, rightSym.next = some m → m ∈ right.map Prod.fst := fun m hm =>
    List.mem_of_mem_head? (h.next_eq_head? hj ▸ hm)
  have hlinked := h.linked
  have hnodup := h.nodup
  rw [List.map_append, List.map_cons] at hlinked hnodup ⊢
  refine hlinked.unlink hnodup ?_ ?_ ?_ ?_ ?_
  · rw [hnextj, nextOf, hget, hi]
    simp [mergedSymbol]
  · intro k hk
    refine nextOf_of_merged hget ?_
    rcases List.mem_append.mp hk with hk | hk
    · exact (hleft k hk).1
    · exact (hright k hk).1
  · intro k hk
    refine prevOf_of_merged hget fun hnext => ?_
    obtain ⟨hki, -, hkleft⟩ := hright k (hmem k hnext)
    rcases List.mem_append.mp hk with hk | hk
    · exact hkleft hk
    · exact hki (List.mem_singleton.mp hk)
  · intro k hk
    rw [hnextj] at hk
    obtain ⟨sym, hsym⟩ := h.exists_sym (k := k) (by simp [hmem k hk])
    rw [prevOf, hget, hsym]
    simp [mergedSymbol, hk]
  · intro k _ hk
    exact prevOf_of_merged hget (hnextj ▸ hk)

theorem Chain.merge_laid (h : Chain text symbols (left ++ (i, p) :: (j, q) :: right))
    (hi : symbols[i]? = some leftSym) (hj : symbols[j]? = some rightSym)
    (hget : ∀ k, symbols'[k]? = (symbols[k]?).map (mergedSymbol i j leftSym rightSym k)) :
    Laid symbols' 0 (left ++ (i, p ++ q) :: right) := by
  obtain ⟨-, hleft, hright⟩ := h.pair_distinct
  obtain ⟨hlaidleft, hlaid⟩ := laid_append_iff.mp h.laid
  obtain ⟨⟨symi, hsymi, htext, hni, hp⟩, ⟨symj, hsymj, -, hnj, -⟩, hlaidright⟩ := hlaid
  cases hi.symm.trans hsymi
  cases hj.symm.trans hsymj
  refine laid_append_iff.mpr ⟨hlaidleft.congr ?_, ?_, ?_⟩
  · intro cell hcell
    obtain ⟨hki, hkj⟩ := hleft cell.1 (List.mem_map_of_mem hcell)
    exact same_of_merged hget hki hkj
  · rw [hget, hi]
    exact ⟨_, rfl, htext, by simp [mergedSymbol, hni, hnj], by simp [hp]⟩
  · rw [List.length_append, ← Nat.add_assoc]
    refine hlaidright.congr ?_
    intro cell hcell
    obtain ⟨hki, hkj, -⟩ := hright cell.1 (List.mem_map_of_mem hcell)
    exact same_of_merged hget hki hkj

/-- **A merge of two neighbours** succeeds, and leaves the chain without the right one. -/
theorem Chain.merge (h : Chain text symbols (left ++ (i, p) :: (j, q) :: right))
    (hi : symbols[i]? = some leftSym) (hj : symbols[j]? = some rightSym) :
    ∃ symbols', mergeSymbols symbols i j leftSym rightSym = some symbols' ∧
      (∀ k, symbols'[k]? = (symbols[k]?).map (mergedSymbol i j leftSym rightSym k)) ∧
      Chain text symbols' (left ++ (i, p ++ q) :: right) := by
  obtain ⟨hij, hleft, hright⟩ := h.pair_distinct
  obtain ⟨symbols', hmerge, hget⟩ := getElem?_mergeSymbols hi hj hij fun m hm => by
    have hmem : m ∈ right.map Prod.fst := List.mem_of_mem_head? (h.next_eq_head? hj ▸ hm)
    obtain ⟨hmi, hmj, -⟩ := hright m hmem
    exact ⟨hmi, hmj, h.exists_sym (by simp [hmem])⟩
  refine ⟨symbols', hmerge, hget, h.merge_linked hi hj hget, ?_, ?_, ?_, h.merge_laid hi hj hget,
    ?_⟩
  · have hfirst := h.first
    cases left with
    | nil => exact hfirst
    | cons cell left => exact hfirst
  · refine h.sorted.sublist ?_
    simp only [List.map_append, List.map_cons]
    exact (List.Sublist.cons_cons i (List.sublist_cons_self j _)).append_left _
  · intro k sym hsym hk
    simp only [List.map_append, List.map_cons, List.mem_append, List.mem_cons, not_or] at hk
    obtain ⟨hkleft, hki, hkright⟩ := hk
    rw [hget] at hsym
    obtain ⟨sym₀, hsym₀, rfl⟩ := Option.map_eq_some_iff.mp hsym
    by_cases hkj : k = j
    · subst hkj
      simp [mergedSymbol, hki]
    · have hzero := h.merged k sym₀ hsym₀ (by simp [hkleft, hki, hkj, hkright])
      simp [mergedSymbol, hki, hkj, hzero]
  · rw [← h.spelled]
    simp

end Merge

end Kaede.LlamaCpp
