import Kaede.Properties.ContextMemory

/-!
# What the context memory holds over a session

A prompt that makes the context shift while it is being decoded leaves cells beyond
`current_position`, and from then on nothing is decoded until the next system prompt.

* `run_tracked` — in every state the memory is laid out without a gap, or it runs ahead
* `run_ahead` — what runs ahead refuses every prompt and every token
* `processUserPrompt_inSync_iff` — which prompts are taken in
-/

namespace Kaede.AiChat

open Infra

variable {Token : Type*} (m : Model Token)

namespace Session

variable {m} {s : Session Token} {c : Context Token} {computed : Nat → Bool}

/-! ## Decoding from a laid out memory -/

variable {tokens : List Token}

/-- Whether `size` tokens are decoded without a shift that has an effect. -/
def Fits (c : Context Token) (size : Nat) : Prop :=
  c.length + size < maxBatchSize ∨ c.kept.length < 2

theorem fits_nDiscard {size : Nat} (h : InSync s c) (hfits : Fits c size) :
    s.currentPosition + size < maxBatchSize ∨ s.nDiscard = 0 := by
  rcases hfits with hroom | hshort
  · rw [h.current]
    exact Or.inl hroom
  · rw [h.nDiscard]
    exact Or.inr (by omega)

theorem one_le_nDiscard {size : Nat} (h : InSync s c) (hfits : ¬ Fits c size) :
    maxBatchSize ≤ s.currentPosition + size ∧ 1 ≤ s.nDiscard := by
  unfold Fits at hfits
  rw [h.current, h.nDiscard]
  omega

/-- Tokens after the conversation make the memory run ahead until the position follows. -/
theorem ahead_of_layout {more : List Token} (hne : more ≠ [])
    (hmem : s.memory = layoutFrom 0 (c.tokens ++ more)) (hcur : s.currentPosition ≤ c.length) :
    Ahead s := by
  obtain ⟨x, xs, rfl⟩ := List.exists_cons_of_ne_nil hne
  refine ⟨(c.length, x), ?_, hcur⟩
  rw [hmem, layoutFrom_append, Nat.zero_add]
  exact List.mem_append_right _ (List.mem_cons_self ..)

/--
Tokens that fit: all of them are laid out, or the first batch that is not taken ends it.

When that is not the very first batch, the batches before it stay in the memory.
-/
theorem decodeTokensFrom_of_fits (computed : Nat → Bool) (h : InSync s c) (hfits : Fits c tokens.length) :
    (s.decodeTokensFrom computed s.currentPosition tokens 0 =
          ({ s with memory := layoutFrom 0 (c.tokens ++ tokens) }, 0) ∧
        ∀ j < tokens.length, batchSize ∣ j → BatchTaken computed c.length tokens.length j) ∨
      ((s.decodeTokensFrom computed s.currentPosition tokens 0).2 = 1 ∧
        Tracked c.system c.kept (s.decodeTokensFrom computed s.currentPosition tokens 0).1 ∧
        ∃ j < tokens.length, batchSize ∣ j ∧ ¬ BatchTaken computed c.length tokens.length j) := by
  obtain ⟨k, hk⟩ := decodeTokensFrom_layout (i := 0) computed
    (show s.currentPosition = c.tokens.length from h.current) (fits_nDiscard h hfits)
    (by rw [List.take_zero, List.append_nil, h.memory])
  rw [hk.result]
  have htaken := hk.taken
  have hrefused := hk.refused
  rw [h.current] at htaken hrefused
  rcases Nat.lt_or_ge k tokens.length with hlt | hge
  · refine Or.inr ⟨if_neg (by omega), ?_, k, hlt, hk.dvd, hrefused hlt⟩
    rcases Nat.eq_zero_or_pos k with rfl | hpos
    · refine Or.inl ⟨c, ⟨?_, h.system, h.current⟩, rfl, .refl _⟩
      rw [List.take_zero, List.append_nil]
    · have hmore : tokens.take k ≠ [] := by
        rw [← List.length_pos_iff, List.length_take]
        omega
      exact Or.inr (ahead_of_layout hmore rfl (h.current ▸ Nat.le_refl _))
  · refine Or.inl ⟨?_, fun j hj hdvd => htaken j (Nat.zero_le j) (by omega) hdvd⟩
    rw [if_pos hge, List.take_of_length_le hge]

/-- Tokens that do not fit are refused, or the positions fall behind the memory. -/
theorem decodeTokensFrom_of_not_fits (computed : Nat → Bool) (h : InSync s c)
    (hfits : ¬ Fits c tokens.length) (hne : tokens ≠ []) :
    ((s.decodeTokensFrom computed s.currentPosition tokens 0).2 = 0 ∧
        ∃ cell ∈ (s.decodeTokensFrom computed s.currentPosition tokens 0).1.memory,
          (s.decodeTokensFrom computed s.currentPosition tokens 0).1.currentPosition +
            tokens.length ≤ cell.1) ∨
      ((s.decodeTokensFrom computed s.currentPosition tokens 0).2 ≠ 0 ∧
        Tracked c.system c.kept (s.decodeTokensFrom computed s.currentPosition tokens 0).1) := by
  have hpos := List.length_pos_iff.mpr hne
  obtain ⟨hfull, hdiscard⟩ := one_le_nDiscard h hfits
  by_cases hok : (s.decodeTokensFrom computed s.currentPosition tokens 0).2 = 0
  · refine Or.inl ⟨hok, ?_⟩
    obtain ⟨cell, hcell, hend⟩ := decodeTokensFrom_reaches hpos hok
    have hback := decodeTokensFrom_shifts hfull hpos hok
    have hle : s.nDiscard ≤ s.currentPosition := by
      have := s.system_add_nDiscard_le
      omega
    exact ⟨cell, hcell, by omega⟩
  · refine Or.inr ⟨hok, ?_⟩
    -- the first batch: refused, or decoded at the position that was current before the loop
    have hshift := shiftForBatch_stepsBack s s.currentPosition 0
      ((tokens.drop 0).take batchSize).length
    cases hdecode : llamaDecode
        (layoutFrom (s.currentPosition + 0) ((tokens.drop 0).take batchSize)) (computed 0)
        (s.shiftForBatch s.currentPosition 0 ((tokens.drop 0).take batchSize).length).memory with
    | none =>
      rw [decodeTokensFrom_of_refused hpos rfl rfl hdecode]
      rcases s.shiftForBatch_cases s.currentPosition 0 _ with heq | heq
      · rw [heq]
        exact Or.inl ⟨c, h, rfl, .refl _⟩
      · rw [heq]
        exact Or.inl ⟨c.forget, shiftContext_inSync h, rfl, latest_forget c⟩
    | some memory =>
      rw [decodeTokensFrom_of_decoded hpos rfl rfl hdecode]
      obtain ⟨hbatch, hmem, -, -⟩ := llamaDecode_eq_some hdecode
      obtain ⟨x, xs, hx⟩ := List.exists_cons_of_ne_nil hbatch
      have hcell : (s.currentPosition, x) ∈ memory := by
        rw [hmem, hx]
        exact List.mem_append_right _ (List.mem_cons_self ..)
      exact Or.inr ⟨(s.currentPosition, x), decodeTokensFrom_keeps hcell hshift.current,
        Nat.le_trans (decodeTokensFrom_stepsBack ..).current hshift.current⟩

/-! ## Prompts as tokens -/

/-- The tokens of a prompt. They depend on the messages so far. -/
def promptTokens (m : Model Token) (role : Role) (prompt : List UInt8) (s : Session Token) :
    List Token :=
  m.tokenize (s.formatPrompt m role prompt).1 m.hasChatTemplate m.hasChatTemplate

/-- The session in which a prompt is decoded. -/
def withPrompt (m : Model Token) (role : Role) (prompt : List UInt8) (s : Session Token) :
    Session Token :=
  (s.resetShortTermStates.formatPrompt m role prompt).2

theorem withPrompt_fields (m : Model Token) (role : Role) (prompt : List UInt8)
    (s : Session Token) :
    (s.withPrompt m role prompt).memory = s.memory ∧
      (s.withPrompt m role prompt).systemPromptPosition = s.systemPromptPosition ∧
      (s.withPrompt m role prompt).currentPosition = s.currentPosition := by
  unfold withPrompt formatPrompt
  split <;> exact ⟨rfl, rfl, rfl⟩

theorem withPrompt_inSync (h : InSync s c) (role : Role) (prompt : List UInt8) :
    InSync (s.withPrompt m role prompt) c := by
  obtain ⟨hmem, hsys, hcur⟩ := s.withPrompt_fields m role prompt
  exact ⟨hmem.trans h.memory, hsys.trans h.system, hcur.trans h.current⟩

theorem withPrompt_ahead (h : Ahead s) (role : Role) (prompt : List UInt8) :
    Ahead (s.withPrompt m role prompt) := by
  obtain ⟨hmem, -, hcur⟩ := s.withPrompt_fields m role prompt
  obtain ⟨cell, hcell, hle⟩ := h
  exact ⟨cell, hmem ▸ hcell, hcur ▸ hle⟩

theorem formatPrompt_resetShortTermStates (role : Role) (prompt : List UInt8) :
    (s.resetShortTermStates.formatPrompt m role prompt).1 = (s.formatPrompt m role prompt).1 := by
  unfold formatPrompt
  split <;> rfl

/-- What the loop over the batches makes of a user prompt. -/
def decodeUserPrompt (m : Model Token) (prompt : List UInt8) (computed : Nat → Bool)
    (s : Session Token) : Session Token × Nat :=
  (s.withPrompt m .user prompt).decodeTokensFrom computed s.currentPosition
    ((s.promptTokens m .user prompt).take maxBatchSize) 0

theorem processUserPrompt_eq (prompt : List UInt8) (nPredict : Int32) (computed : Nat → Bool)
    (s : Session Token) :
    s.processUserPrompt m prompt nPredict computed =
      match s.decodeUserPrompt m prompt computed with
      | (s', 0) => (s'.afterUserPrompt (s.promptTokens m .user prompt).length nPredict, 0)
      | (s', _) => (s', 2) := by
  unfold decodeUserPrompt promptTokens
  rw [← (s.withPrompt_fields m .user prompt).2.2, ← formatPrompt_resetShortTermStates]
  rfl

/-- A user prompt is decoded and the positions follow, or it is refused. -/
theorem processUserPrompt_cases (prompt : List UInt8) (nPredict : Int32) (computed : Nat → Bool)
    (s : Session Token) :
    ((s.decodeUserPrompt m prompt computed).2 = 0 ∧
      s.processUserPrompt m prompt nPredict computed =
        ((s.decodeUserPrompt m prompt computed).1.afterUserPrompt
          (s.promptTokens m .user prompt).length nPredict, 0)) ∨
      ((s.decodeUserPrompt m prompt computed).2 ≠ 0 ∧
        s.processUserPrompt m prompt nPredict computed =
          ((s.decodeUserPrompt m prompt computed).1, 2)) := by
  rw [processUserPrompt_eq]
  obtain ⟨s', n⟩ := s.decodeUserPrompt m prompt computed
  cases n with
  | zero => exact Or.inl ⟨rfl, rfl⟩
  | succ n => exact Or.inr ⟨Nat.succ_ne_zero n, rfl⟩

/-! ## A user prompt -/

variable {prompt : List UInt8} {nPredict : Int32}

theorem ahead_of_mem {cell : Nat × Token} (hcell : cell ∈ s.memory)
    (hle : s.currentPosition ≤ cell.1) : Ahead s := ⟨cell, hcell, hle⟩

/-- From a memory that runs ahead every prompt that has tokens is refused. -/
theorem processUserPrompt_of_ahead (m : Model Token) (prompt : List UInt8) (nPredict : Int32)
    (computed : Nat → Bool) (h : Ahead s) :
    Ahead (s.processUserPrompt m prompt nPredict computed).1 ∧
      (s.promptTokens m .user prompt ≠ [] →
        (s.processUserPrompt m prompt nPredict computed).2 = 2) := by
  obtain ⟨cell, hcell, hle⟩ := withPrompt_ahead (m := m) h .user prompt
  have hcur := (s.withPrompt_fields m .user prompt).2.2
  have hkeeps : cell ∈ (s.decodeUserPrompt m prompt computed).1.memory :=
    decodeTokensFrom_keeps hcell hle
  have hback : (s.decodeUserPrompt m prompt computed).1.currentPosition ≤ cell.1 :=
    Nat.le_trans (decodeTokensFrom_stepsBack ..).current hle
  have hrefused : s.promptTokens m .user prompt ≠ [] →
      (s.decodeUserPrompt m prompt computed).2 = 1 := by
    intro hne
    refine decodeTokensFrom_of_ahead hcell hle (hcur ▸ hle) ?_
    rw [Ne, List.take_eq_nil_iff]
    exact fun hnil => hnil.elim (by simp [maxBatchSize, defaultContextSize, overflowHeadroom]) hne
  rcases s.processUserPrompt_cases (m := m) prompt nPredict computed with ⟨hok, heq⟩ | ⟨hno, heq⟩
  · -- only a prompt without tokens is decoded, and it moves nothing
    have hnil : s.promptTokens m .user prompt = [] := by
      by_contra hne
      rw [hrefused hne] at hok
      exact absurd hok (by simp)
    rw [heq, hnil]
    exact ⟨ahead_of_mem hkeeps hback, fun hne => absurd rfl hne⟩
  · rw [heq]
    exact ⟨ahead_of_mem hkeeps hback, fun _ => rfl⟩

/-- A prompt that is not cut off is decoded as it is. -/
theorem decodeUserPrompt_of_le (computed : Nat → Bool)
    (hle : (s.promptTokens m .user prompt).length ≤ maxBatchSize) :
    s.decodeUserPrompt m prompt computed =
      (s.withPrompt m .user prompt).decodeTokensFrom computed
        (s.withPrompt m .user prompt).currentPosition (s.promptTokens m .user prompt) 0 := by
  unfold decodeUserPrompt
  rw [List.take_of_length_le hle, (s.withPrompt_fields m .user prompt).2.2]

/-- The batches of a prompt are all taken exactly when all are computed and there is room. -/
theorem forall_batchTaken_iff {startPos size : Nat} (hsize : 0 < size) :
    (∀ j < size, batchSize ∣ j → BatchTaken computed startPos size j) ↔
      startPos + size ≤ defaultContextSize ∧
        ∀ j < size, batchSize ∣ j → computed j = true := by
  constructor
  · intro h
    refine ⟨?_, fun j hj hdvd => (h j hj hdvd).1⟩
    -- the last batch is the one that needs the room
    have hmod := Nat.div_add_mod (size - 1) batchSize
    have hlt := Nat.mod_lt (size - 1) (show 0 < batchSize by unfold batchSize; omega)
    have hlast := (h (batchSize * ((size - 1) / batchSize)) (by omega) ⟨_, rfl⟩).2
    omega
  · rintro ⟨hroom, hcomputed⟩ j hj hdvd
    exact ⟨hcomputed j hj hdvd, by omega⟩

theorem afterUserPrompt_inSync {s' : Session Token} {tokens : List Token}
    (hmem : s'.memory = layoutFrom 0 (c.tokens ++ tokens))
    (hsys : s'.systemPromptPosition = c.system.length) (hcur : s'.currentPosition = c.length) :
    InSync (s'.afterUserPrompt tokens.length nPredict) (c.extend tokens) where
  memory := by
    rw [Context.tokens_extend]
    exact hmem
  system := hsys
  current := by
    rw [Context.length_extend, ← hcur]
    rfl

/-- A prompt goes through when it fits as it is and all its batches are computed. -/
theorem fits_batchesTaken_iff {c : Context Token} {size : Nat} (hsize : 0 < size) :
    (Fits c size ∧ ∀ j < size, batchSize ∣ j → BatchTaken computed c.length size j) ↔
      (c.length + size < maxBatchSize ∨ c.kept.length < 2 ∧ c.length + size ≤ defaultContextSize) ∧
        ∀ j < size, batchSize ∣ j → computed j = true := by
  rw [forall_batchTaken_iff hsize, ← and_assoc]
  refine and_congr_left fun _ => ?_
  unfold Fits maxBatchSize
  omega

/-- From a laid out memory a prompt is taken in, or it is refused, or the memory runs ahead. -/
theorem processUserPrompt_of_inSync (nPredict : Int32) (computed : Nat → Bool) (h : InSync s c)
    (hle : (s.promptTokens m .user prompt).length ≤ maxBatchSize)
    (hne : s.promptTokens m .user prompt ≠ []) :
    ((s.processUserPrompt m prompt nPredict computed).2 = 0 ∧
        InSync (s.processUserPrompt m prompt nPredict computed).1
          (c.extend (s.promptTokens m .user prompt)) ∧
        Fits c (s.promptTokens m .user prompt).length ∧
        ∀ j < (s.promptTokens m .user prompt).length, batchSize ∣ j →
          BatchTaken computed c.length (s.promptTokens m .user prompt).length j) ∨
      (Tracked c.system c.kept (s.processUserPrompt m prompt nPredict computed).1 ∧
        ((s.processUserPrompt m prompt nPredict computed).2 = 0 →
          Ahead (s.processUserPrompt m prompt nPredict computed).1) ∧
        ¬ (Fits c (s.promptTokens m .user prompt).length ∧
          ∀ j < (s.promptTokens m .user prompt).length, batchSize ∣ j →
            BatchTaken computed c.length (s.promptTokens m .user prompt).length j)) := by
  have hsync := withPrompt_inSync (m := m) h .user prompt
  have hdecode := decodeUserPrompt_of_le (m := m) computed hle
  by_cases hfits : Fits c (s.promptTokens m .user prompt).length
  · rcases decodeTokensFrom_of_fits computed hsync hfits with
      ⟨heq, htaken⟩ | ⟨hcode, htracked, j, hj, hdvd, hnot⟩
    · rw [heq] at hdecode
      rcases s.processUserPrompt_cases (m := m) prompt nPredict computed with ⟨-, hres⟩ | ⟨hno, -⟩
      · rw [hres, hdecode]
        exact Or.inl ⟨rfl, afterUserPrompt_inSync rfl hsync.system hsync.current, hfits, htaken⟩
      · rw [hdecode] at hno
        exact absurd rfl hno
    · rw [← hdecode] at hcode htracked
      rcases s.processUserPrompt_cases (m := m) prompt nPredict computed with ⟨hok, -⟩ | ⟨-, hres⟩
      · rw [hcode] at hok
        exact absurd hok Nat.one_ne_zero
      · rw [hres]
        exact Or.inr ⟨htracked, fun hzero => absurd hzero (by simp),
          fun hall => hnot (hall.2 j hj hdvd)⟩
  · rcases decodeTokensFrom_of_not_fits computed hsync hfits hne with
      ⟨hcode, cell, hcell, hend⟩ | ⟨hcode, htracked⟩
    · rw [← hdecode] at hcode hcell hend
      rcases s.processUserPrompt_cases (m := m) prompt nPredict computed with ⟨-, hres⟩ | ⟨hno, -⟩
      · have hahead : Ahead (s.processUserPrompt m prompt nPredict computed).1 := by
          rw [hres]
          exact ahead_of_mem hcell hend
        exact Or.inr ⟨Or.inr hahead, fun _ => hahead, fun hall => hfits hall.1⟩
      · exact absurd hcode hno
    · rw [← hdecode] at hcode htracked
      rcases s.processUserPrompt_cases (m := m) prompt nPredict computed with ⟨hok, -⟩ | ⟨-, hres⟩
      · exact absurd hok hcode
      · rw [hres]
        exact Or.inr ⟨htracked, fun hzero => absurd hzero (by simp), fun hall => hfits hall.1⟩

/-- A prompt without tokens leaves the conversation as it is. -/
theorem processUserPrompt_of_nil (h : InSync s c) (hnil : s.promptTokens m .user prompt = []) :
    InSync (s.processUserPrompt m prompt nPredict computed).1 c := by
  have hsync := withPrompt_inSync (m := m) h .user prompt
  have hdecode : s.decodeUserPrompt m prompt computed = (s.withPrompt m .user prompt, 0) := by
    rw [decodeUserPrompt_of_le computed (by rw [hnil]; exact Nat.zero_le _), hnil]
    exact decodeTokensFrom_of_le (Nat.le_refl 0)
  rcases s.processUserPrompt_cases (m := m) prompt nPredict computed with ⟨-, hres⟩ | ⟨hno, -⟩
  · rw [hres, hdecode, hnil]
    exact ⟨hsync.memory, hsync.system, hsync.current⟩
  · rw [hdecode] at hno
    exact absurd rfl hno

/-! ## A system prompt -/

/-- A system prompt that is taken in is the whole conversation, from whatever there was before. -/
theorem processSystemPrompt_of_ok (s : Session Token)
    (hok : (s.processSystemPrompt m prompt computed).2 = 0) :
    InSync (s.processSystemPrompt m prompt computed).1
      ⟨s.resetLongTermStates.promptTokens m .system prompt, []⟩ := by
  have hclear : InSync s.resetLongTermStates ⟨[], []⟩ := ⟨rfl, rfl, rfl⟩
  have hsync := withPrompt_inSync (m := m) hclear .system prompt
  have hfits : Fits (⟨[], []⟩ : Context Token)
      (s.resetLongTermStates.promptTokens m .system prompt).length := Or.inr (by simp)
  unfold promptTokens at hfits ⊢
  rw [← formatPrompt_resetShortTermStates] at hfits ⊢
  unfold withPrompt at hsync
  unfold processSystemPrompt at hok ⊢
  simp only [] at hok ⊢
  split at hok
  · exact absurd hok Nat.one_ne_zero
  · next hsize =>
    rw [if_neg hsize]
    unfold decodeTokensInBatches at hok ⊢
    rcases decodeTokensFrom_of_fits computed hsync hfits with ⟨heq, -⟩ | ⟨hcode, -⟩
    · rw [heq]
      refine ⟨?_, rfl, ?_⟩
      · show layoutFrom 0 ([] ++ _) = layoutFrom 0 (_ ++ [])
        rw [List.nil_append, List.append_nil]
      · show _ = (_ ++ []).length
        rw [List.append_nil]
        rfl
    · split at hok
      · next heq =>
        rw [heq] at hcode
        exact absurd hcode Nat.zero_ne_one
      · exact absurd hok (by simp)

/-! ## A generated token -/

variable {newTokenId : Token} {taken : Bool}

theorem shiftWhenFull_inSync (h : InSync s c) :
    InSync s.shiftWhenFull (if maxBatchSize ≤ c.length then c.forget else c) := by
  unfold shiftWhenFull
  rw [h.current]
  show InSync (if maxBatchSize ≤ c.length then _ else _) _
  split
  · exact shiftContext_inSync h
  · exact h

theorem shiftWhenFull_ahead (h : Ahead s) : Ahead s.shiftWhenFull := by
  obtain ⟨cell, hcell, hle⟩ := h
  rcases s.shiftWhenFull_cases with heq | heq
  · rw [heq]
    exact ⟨cell, hcell, hle⟩
  · rw [heq]
    exact ⟨cell, mem_shiftContext hcell hle, Nat.le_trans (Nat.sub_le ..) hle⟩

/-- Handing out the text leaves the positions and the memory alone. -/
theorem emitToken_fields (m : Model Token) (newTokenId : Token) (s : Session Token) :
    (s.emitToken m newTokenId).1.memory = s.memory ∧
      (s.emitToken m newTokenId).1.systemPromptPosition = s.systemPromptPosition ∧
      (s.emitToken m newTokenId).1.currentPosition = s.currentPosition ∧
      (s.emitToken m newTokenId).1.stopGenerationPosition = s.stopGenerationPosition := by
  unfold emitToken
  split
  · exact ⟨rfl, rfl, rfl, rfl⟩
  · simp only []
    split <;> exact ⟨rfl, rfl, rfl, rfl⟩

/-- The session after a token was decoded. -/
def appendToken (memory : List (Nat × Token)) (s : Session Token) : Session Token :=
  { s with
    memory
    currentPosition := s.currentPosition + 1
    system_le_current := Nat.le_succ_of_le s.system_le_current }

theorem appendToken_inSync (newTokenId : Token) (h : InSync s c) :
    InSync (s.appendToken (layoutFrom 0 (c.tokens ++ [newTokenId]))) (c.extend [newTokenId]) where
  memory := by
    rw [Context.tokens_extend]
    rfl
  system := h.system
  current := by
    rw [Context.length_extend, ← h.current]
    rfl

/-- One more token after what is laid out. -/
theorem llamaDecode_token (h : InSync s c) :
    llamaDecode [(s.currentPosition, newTokenId)] taken s.memory =
      if taken = true ∧ c.length + 1 ≤ defaultContextSize then
        some (layoutFrom 0 (c.tokens ++ [newTokenId]))
      else none := by
  rw [h.memory, h.current]
  exact llamaDecode_layout c.tokens taken (List.cons_ne_nil newTokenId [])

/-- The cases of `generateNextToken`. -/
theorem generateNextToken_cases (m : Model Token) (newTokenId : Token) (taken : Bool)
    (s : Session Token) :
    (s.generateNextToken m newTokenId taken = (s.shiftWhenFull, none) ∧
        (s.shiftWhenFull.stopGenerationPosition.toInt ≤ s.shiftWhenFull.currentPosition ∨
          llamaDecode [(s.shiftWhenFull.currentPosition, newTokenId)] taken
            s.shiftWhenFull.memory = none)) ∨
      (s.shiftWhenFull.currentPosition < s.shiftWhenFull.stopGenerationPosition.toInt ∧ ∃ memory,
        llamaDecode [(s.shiftWhenFull.currentPosition, newTokenId)] taken
          s.shiftWhenFull.memory = some memory ∧
        s.generateNextToken m newTokenId taken =
          (s.shiftWhenFull.appendToken memory).emitToken m newTokenId) := by
  unfold generateNextToken
  simp only []
  split
  · next hstop => exact Or.inl ⟨rfl, Or.inl hstop⟩
  · next hgo =>
    cases hdecode : llamaDecode [(s.shiftWhenFull.currentPosition, newTokenId)] taken
        s.shiftWhenFull.memory with
    | none => exact Or.inl ⟨rfl, Or.inr rfl⟩
    | some memory => exact Or.inr ⟨Int.not_le.mp hgo, memory, rfl, rfl⟩

/-- From a memory that runs ahead no token is generated. -/
theorem generateNextToken_of_ahead (m : Model Token) (newTokenId : Token) (taken : Bool)
    (h : Ahead s) :
    Ahead (s.generateNextToken m newTokenId taken).1 ∧
      (s.generateNextToken m newTokenId taken).2 = none := by
  have hahead := shiftWhenFull_ahead h
  rcases generateNextToken_cases m newTokenId taken s with ⟨heq, -⟩ | ⟨-, memory, hdecode, -⟩
  · rw [heq]
    exact ⟨hahead, rfl⟩
  · obtain ⟨cell, hcell, hle⟩ := hahead
    have hrefused : llamaDecode (layoutFrom s.shiftWhenFull.currentPosition [newTokenId]) taken
        s.shiftWhenFull.memory = none := llamaDecode_of_le hcell hle
    exact absurd (hrefused.symm.trans hdecode) (by simp)

/-- A token becomes part of the conversation when the position follows it. -/
def TokenTaken (m : Model Token) (newTokenId : Token) (taken : Bool) (s : Session Token) : Prop :=
  s.shiftWhenFull.currentPosition < (s.generateNextToken m newTokenId taken).1.currentPosition

instance (m : Model Token) (newTokenId : Token) (taken : Bool) (s : Session Token) :
    Decidable (TokenTaken m newTokenId taken s) := inferInstanceAs (Decidable (_ < _))

/-- From a laid out memory. -/
theorem generateNextToken_of_inSync (h : InSync s c) :
    Tracked c.system (c.kept ++ if TokenTaken m newTokenId taken s then [newTokenId] else [])
      (s.generateNextToken m newTokenId taken).1 := by
  obtain ⟨c', hsync, hsystem, hkept⟩ :
      ∃ c', InSync s.shiftWhenFull c' ∧ c'.system = c.system ∧ Latest c'.kept c.kept := by
    refine ⟨_, shiftWhenFull_inSync h, ?_, ?_⟩
    · split <;> rfl
    · split
      · exact latest_forget c
      · exact .refl _
  rcases generateNextToken_cases m newTokenId taken s with ⟨heq, -⟩ | ⟨-, memory, hdecode, heq⟩
  · have hnot : ¬ TokenTaken m newTokenId taken s := by
      unfold TokenTaken
      rw [heq]
      exact Nat.lt_irrefl _
    rw [if_neg hnot, List.append_nil, heq]
    exact Or.inl ⟨c', hsync, hsystem, hkept⟩
  · obtain ⟨hmem, hsys, hcur, -⟩ := emitToken_fields m newTokenId (s.shiftWhenFull.appendToken memory)
    have htaken : TokenTaken m newTokenId taken s := by
      unfold TokenTaken
      rw [heq, hcur]
      exact Nat.lt_succ_self _
    rw [llamaDecode_token hsync] at hdecode
    split at hdecode
    · have happend := appendToken_inSync newTokenId hsync
      rw [Option.some.inj hdecode] at happend
      rw [if_pos htaken, heq]
      exact Or.inl ⟨c'.extend [newTokenId], ⟨hmem.trans happend.memory, hsys.trans happend.system,
        hcur.trans happend.current⟩, hsystem, hkept.append _⟩
    · exact absurd hdecode (by simp)

end Session

/-! ## Runs -/

open Session

variable {m}

/-- A user prompt is no longer than the context can hold at once. -/
def PromptInContext (m : Model Token) (s : Session Token) : Call Token → Prop
  | .processUserPrompt prompt _ _ => (s.promptTokens m .user prompt).length ≤ maxBatchSize
  | _ => True

instance (m : Model Token) (s : Session Token) :
    (call : Call Token) → Decidable (PromptInContext m s call)
  | .processUserPrompt _ _ _ => inferInstanceAs (Decidable (_ ≤ _))
  | .processSystemPrompt _ _ | .generateNextToken _ _ => .isTrue trivial

/-- No new system prompt. -/
def KeepsSystemPrompt : Call Token → Prop
  | .processSystemPrompt _ _ => False
  | _ => True

/-- What a call appends to the conversation: a prompt that was decoded, or a generated token. -/
def appended (m : Model Token) (s : Session Token) : Call Token → List Token
  | .processSystemPrompt _ _ => []
  | .processUserPrompt prompt nPredict computed =>
    if (s.processUserPrompt m prompt nPredict computed).2 = 0 then s.promptTokens m .user prompt
    else []
  | .generateNextToken newTokenId taken =>
    if TokenTaken m newTokenId taken s then [newTokenId] else []

theorem appended_userPrompt {s : Session Token} {prompt : List UInt8} {nPredict : Int32}
    {computed : Nat → Bool} :
    appended m s (.processUserPrompt prompt nPredict computed) =
      if (s.processUserPrompt m prompt nPredict computed).2 = 0 then s.promptTokens m .user prompt
      else [] := rfl

/-- The conversation of a run. -/
def conversation (m : Model Token) (s : Session Token) (calls : List (Call Token)) : List Token :=
  ((sessionMachine m).outputs (fun s call => some (appended m s call)) s calls).flatten

theorem conversation_cons {s t : Session Token} {call : Call Token} {calls : List (Call Token)}
    (h : (sessionMachine m).step s call = some t) :
    conversation m s (call :: calls) = appended m s call ++ conversation m t calls := by
  unfold conversation
  rw [Machine.outputs_cons_of_step h]
  rfl

/-- What one call makes of a memory that is tracked. -/
theorem callStep_tracked {system before : List Token} {s : Session Token} {call : Call Token}
    (h : Tracked system before s) (hcall : PromptInContext m s call)
    (hkeeps : KeepsSystemPrompt call) :
    Tracked system (before ++ appended m s call) (callStep m s call).1 := by
  cases call with
  | processSystemPrompt prompt computed => exact hkeeps.elim
  | processUserPrompt prompt nPredict computed =>
    rw [appended_userPrompt]
    rcases h with ⟨c, hsync, rfl, hlatest⟩ | hahead
    · by_cases hne : s.promptTokens m .user prompt = []
      · rw [hne, ite_self, List.append_nil]
        exact Or.inl ⟨c, processUserPrompt_of_nil hsync hne, rfl, hlatest⟩
      · rcases processUserPrompt_of_inSync nPredict computed hsync hcall hne with
          ⟨hcode, hafter, -⟩ | ⟨htracked, hahead, -⟩
        · rw [if_pos hcode]
          exact Or.inl ⟨_, hafter, rfl, hlatest.append _⟩
        · split
          · next hcode => exact Or.inr (hahead hcode)
          · rw [List.append_nil]
            exact htracked.mono hlatest
    · exact Or.inr (processUserPrompt_of_ahead m prompt nPredict computed hahead).1
  | generateNextToken token computed =>
    rcases h with ⟨c, hsync, rfl, hlatest⟩ | hahead
    · exact (generateNextToken_of_inSync hsync).mono (hlatest.append _)
    · exact Or.inr (generateNextToken_of_ahead m token computed hahead).1

theorem run_tracked_from {system before : List Token} {s s' : Session Token}
    {calls : List (Call Token)} (h : Tracked system before s)
    (hcalls : ∀ call ∈ calls, KeepsSystemPrompt call)
    (hprompts : (sessionMachine m).Along (PromptInContext m) s calls)
    (hr : (sessionMachine m).run s calls = some s') :
    Tracked system (before ++ conversation m s calls) s' := by
  induction calls generalizing s before with
  | nil =>
    rw [Machine.run_nil, Option.some.injEq] at hr
    rw [← hr, conversation, Machine.outputs, List.flatten_nil, List.append_nil]
    exact h
  | cons call calls ih =>
    obtain ⟨hcall, hrest⟩ := List.forall_mem_cons.mp hcalls
    obtain ⟨t, ht, hr'⟩ := (Machine.run_cons_eq_some _).mp hr
    have hstep : Tracked system (before ++ appended m s call) t :=
      Option.some.inj ht ▸ callStep_tracked h hprompts.1 hcall
    rw [conversation_cons ht, ← List.append_assoc]
    exact ih hstep hrest (hprompts.2 t ht) hr'

/--
**The system prompt stays.** After a system prompt that was taken in, the memory is at all times
that prompt and the latest part of the conversation since, laid out without a gap up to
`current_position`, or it runs ahead of `current_position`.
-/
theorem run_tracked {s₀ s : Session Token} {prompt : List UInt8} {computed : Nat → Bool}
    {calls : List (Call Token)} (hok : (s₀.processSystemPrompt m prompt computed).2 = 0)
    (hcalls : ∀ call ∈ calls, KeepsSystemPrompt call)
    (hprompts : (sessionMachine m).Along (PromptInContext m)
      (s₀.processSystemPrompt m prompt computed).1 calls)
    (hr : (sessionMachine m).run (s₀.processSystemPrompt m prompt computed).1 calls = some s) :
    Tracked (s₀.resetLongTermStates.promptTokens m .system prompt)
      (conversation m (s₀.processSystemPrompt m prompt computed).1 calls) s := by
  have hstart : Tracked (s₀.resetLongTermStates.promptTokens m .system prompt) []
      (s₀.processSystemPrompt m prompt computed).1 :=
    Or.inl ⟨_, processSystemPrompt_of_ok s₀ hok, rfl, .refl _⟩
  exact run_tracked_from hstart hcalls hprompts hr

/-- A session whose tokens are bytes. -/
def byteModel : Model UInt8 where
  hasChatTemplate := false
  formatSingle _ msg _ := msg.content
  tokenize text _ _ := text
  tokenToPiece token := [token]
  isEog token := token == 0x00

/-- The session after a system prompt of two tokens. -/
def twoTokens : Session UInt8 :=
  ((Session.prepared : Session UInt8).processSystemPrompt byteModel [0x62, 0x65] fun _ => true).1

/-- A user prompt, a prompt whose batch fails, and a token. -/
def promptAndToken : List (Call UInt8) :=
  [.processUserPrompt [0x68, 0x69] 16 fun _ => true, .processUserPrompt [0x21] 16 fun _ => false,
    .processUserPrompt [0x3F] 16 fun _ => true, .generateNextToken 0x79 true]

theorem run_tracked_two :
    ∃ s, (sessionMachine byteModel).run twoTokens promptAndToken = some s ∧
      conversation byteModel twoTokens promptAndToken = [0x68, 0x69, 0x3F, 0x79] ∧ ¬ Ahead s ∧
      Tracked [0x62, 0x65] [0x68, 0x69, 0x3F, 0x79] s := by
  have hok : ((Session.prepared : Session UInt8).processSystemPrompt byteModel [0x62, 0x65]
      fun _ => true).2 = 0 := by decide +kernel
  have hconversation : conversation byteModel twoTokens promptAndToken = [0x68, 0x69, 0x3F, 0x79] := by
    decide +kernel
  have hprompts : (sessionMachine byteModel).Along (PromptInContext byteModel) twoTokens
      promptAndToken := by decide +kernel
  have hr : (sessionMachine byteModel).run twoTokens promptAndToken = some _ := rfl
  have htracked := run_tracked hok (by simp [promptAndToken, KeepsSystemPrompt]) hprompts hr
  refine ⟨_, hr, hconversation, ?_, hconversation ▸ htracked⟩
  unfold Ahead
  decide +kernel

/-- The call decodes nothing: a prompt that has tokens returns 2, and no token is generated. -/
def Refuses (m : Model Token) (s : Session Token) (call : Call Token) : Prop :=
  match call with
  | .processUserPrompt prompt _ _ =>
    s.promptTokens m .user prompt ≠ [] → (callStep m s call).2 = .code 2
  | _ => (callStep m s call).2 = .text none

theorem callStep_of_ahead {s : Session Token} {call : Call Token} (h : Ahead s)
    (hcall : KeepsSystemPrompt call) : Ahead (callStep m s call).1 ∧ Refuses m s call := by
  cases call with
  | processSystemPrompt prompt computed => exact hcall.elim
  | processUserPrompt prompt nPredict computed =>
    obtain ⟨hahead, hcode⟩ := processUserPrompt_of_ahead m prompt nPredict computed h
    exact ⟨hahead, fun hne => congrArg Returned.code (hcode hne)⟩
  | generateNextToken token computed =>
    obtain ⟨hahead, hnone⟩ := generateNextToken_of_ahead m token computed h
    exact ⟨hahead, congrArg Returned.text hnone⟩

/-- **What runs ahead decodes nothing until the next system prompt.** -/
theorem run_ahead {calls : List (Call Token)} {s t : Session Token} (h : Ahead s)
    (hcalls : ∀ call ∈ calls, KeepsSystemPrompt call)
    (hr : (sessionMachine m).run s calls = some t) :
    Ahead t ∧ (sessionMachine m).Along (Refuses m) s calls := by
  induction calls generalizing s with
  | nil =>
    rw [Machine.run_nil, Option.some.injEq] at hr
    exact ⟨hr ▸ h, trivial⟩
  | cons call calls ih =>
    obtain ⟨hcall, hrest⟩ := List.forall_mem_cons.mp hcalls
    obtain ⟨s', hs', hr'⟩ := (Machine.run_cons_eq_some _).mp hr
    have hstep := callStep_of_ahead (m := m) h hcall
    have heq : (callStep m s call).1 = s' := Option.some.inj hs'
    obtain ⟨ht, halong⟩ := ih (heq ▸ hstep.1) hrest hr'
    refine ⟨ht, hstep.2, fun u hu => ?_⟩
    rw [hs'] at hu
    rw [← Option.some.inj hu]
    exact halong

/-- A cell where the next token should go. -/
def oneAhead : Session UInt8 :=
  { (Session.prepared : Session UInt8) with
    stopGenerationPosition := 16
    memory := [(0, 0x68)] }

/-- A prompt and a token. -/
def promptThenToken : List (Call UInt8) :=
  [.processUserPrompt [0x68] 16 fun _ => true, .generateNextToken 0x69 true]

theorem run_ahead_one_cell :
    ∃ t, (sessionMachine byteModel).run oneAhead promptThenToken = some t ∧ Ahead t ∧
      (sessionMachine byteModel).Along (Refuses byteModel) oneAhead promptThenToken := by
  have hahead : Ahead oneAhead := ⟨(0, 0x68), List.mem_singleton_self _, Nat.le_refl 0⟩
  have hr : (sessionMachine byteModel).run oneAhead promptThenToken = some _ := rfl
  exact ⟨_, hr, run_ahead hahead (by simp [promptThenToken, KeepsSystemPrompt]) hr⟩

/--
**Which prompts are taken in.** A prompt becomes part of the conversation exactly when it fits as it
is: a prompt that needs the context to shift never does, unless less than two tokens follow the
system prompt. Otherwise it is refused, or the memory runs ahead.
-/
theorem processUserPrompt_inSync_iff {s : Session Token} {c : Context Token} {prompt : List UInt8}
    (nPredict : Int32) (computed : Nat → Bool) (h : InSync s c)
    (hle : (s.promptTokens m .user prompt).length ≤ maxBatchSize)
    (hne : s.promptTokens m .user prompt ≠ []) :
    ((s.processUserPrompt m prompt nPredict computed).2 = 0 ∧
        InSync (s.processUserPrompt m prompt nPredict computed).1
          (c.extend (s.promptTokens m .user prompt)) ↔
      (c.length + (s.promptTokens m .user prompt).length < maxBatchSize ∨
          c.kept.length < 2 ∧
            c.length + (s.promptTokens m .user prompt).length ≤ defaultContextSize) ∧
        ∀ j < (s.promptTokens m .user prompt).length, batchSize ∣ j → computed j = true) ∧
      (¬ InSync (s.processUserPrompt m prompt nPredict computed).1
          (c.extend (s.promptTokens m .user prompt)) →
        (s.processUserPrompt m prompt nPredict computed).2 = 2 ∨
          Ahead (s.processUserPrompt m prompt nPredict computed).1) := by
  rw [← fits_batchesTaken_iff (List.length_pos_iff.mpr hne)]
  rcases processUserPrompt_of_inSync nPredict computed h hle hne with
    ⟨hcode, hafter, hall⟩ | ⟨-, hahead, hnot⟩
  · exact ⟨⟨fun _ => hall, fun _ => ⟨hcode, hafter⟩⟩, fun hnot => absurd hafter hnot⟩
  · refine ⟨⟨fun hok => absurd (hahead hok.1) hok.2.not_ahead, fun hall => absurd hall hnot⟩, ?_⟩
    intro _
    rcases s.processUserPrompt_cases (m := m) prompt nPredict computed with ⟨-, hres⟩ | ⟨-, hres⟩
    · exact Or.inr (hahead (congrArg Prod.snd hres))
    · exact Or.inl (congrArg Prod.snd hres)

/-- A conversation of 7600 tokens. -/
def longContext : Context UInt8 := ⟨[], List.replicate 7600 0x61⟩

theorem length_longContext : longContext.length = 7600 ∧ longContext.kept.length = 7600 :=
  ⟨List.length_replicate, List.length_replicate⟩

def longSession : Session UInt8 :=
  { (Session.prepared : Session UInt8) with
    currentPosition := 7600
    memory := layoutFrom 0 longContext.tokens
    system_le_current := Nat.zero_le 7600 }

theorem inSync_longSession : InSync longSession longContext :=
  ⟨rfl, rfl, length_longContext.1.symm⟩

/-- A prompt of 600 tokens. -/
def longPrompt : List UInt8 := List.replicate 600 0x61

theorem length_longPrompt :
    (longSession.promptTokens byteModel .user longPrompt).length = 600 := List.length_replicate

/-- It needs a shift, and so it is not taken in. -/
theorem processUserPrompt_inSync_iff_shift :
    ¬ ((longSession.processUserPrompt byteModel longPrompt 16 fun _ => true).2 = 0 ∧
        InSync (longSession.processUserPrompt byteModel longPrompt 16 fun _ => true).1
          (longContext.extend longPrompt)) ∧
      (¬ InSync (longSession.processUserPrompt byteModel longPrompt 16 fun _ => true).1
          (longContext.extend longPrompt) →
        (longSession.processUserPrompt byteModel longPrompt 16 fun _ => true).2 = 2 ∨
          Ahead (longSession.processUserPrompt byteModel longPrompt 16 fun _ => true).1) := by
  have hle : (longSession.promptTokens byteModel .user longPrompt).length ≤ maxBatchSize := by
    rw [length_longPrompt]
    simp [maxBatchSize, defaultContextSize, overflowHeadroom]
  have hne : longSession.promptTokens byteModel .user longPrompt ≠ [] :=
    List.ne_nil_of_length_eq_add_one length_longPrompt
  obtain ⟨hiff, hrest⟩ := processUserPrompt_inSync_iff 16 (fun _ => true) inSync_longSession hle hne
  refine ⟨fun hin => ?_, hrest⟩
  have hfits := (hiff.mp hin).1
  rw [length_longPrompt, length_longContext.1, length_longContext.2] at hfits
  unfold maxBatchSize defaultContextSize overflowHeadroom at hfits
  omega

end Kaede.AiChat
