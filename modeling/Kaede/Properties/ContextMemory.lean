import Kaede.AiChat.Session

/-!
# The context memory of a session

The purpose of the memory is a system prompt that stays and a conversation whose older half is
forgotten when there is no room.

* `shiftContext_inSync` — the shift forgets the older half of the conversation
* `decodeTokensFrom_rule` — the rule of the loop over the batches, and with it what the loop leaves
  alone, where it ends, and how far it moves the current position back
* `decodeTokensFrom_layout` — a loop that never shifts lays out its tokens
-/

namespace Kaede.AiChat

open Infra

variable {Token : Type*}

/-! ## The conversation -/

/-- The system prompt and what is kept of the conversation after it. -/
structure Context (Token : Type*) where
  system : List Token
  kept : List Token

namespace Context

variable (c : Context Token)

def tokens : List Token := c.system ++ c.kept

def length : Nat := c.tokens.length

/-- The older half of the conversation is forgotten. -/
def forget : Context Token := { c with kept := c.kept.drop (c.kept.length / 2) }

def extend (tokens : List Token) : Context Token := { c with kept := c.kept ++ tokens }

variable {c}

theorem length_eq : c.length = c.system.length + c.kept.length := List.length_append

@[simp] theorem tokens_extend (tokens : List Token) : (c.extend tokens).tokens = c.tokens ++ tokens :=
  (List.append_assoc ..).symm

@[simp] theorem length_extend (tokens : List Token) :
    (c.extend tokens).length = c.length + tokens.length := by
  unfold length
  rw [tokens_extend, List.length_append]

@[simp] theorem system_forget : c.forget.system = c.system := rfl

@[simp] theorem length_kept_forget : c.forget.kept.length = c.kept.length - c.kept.length / 2 :=
  List.length_drop

theorem length_forget : c.forget.length = c.length - c.kept.length / 2 := by
  rw [length_eq, length_eq, length_kept_forget, system_forget]
  omega

end Context

/-- The memory is the conversation from position 0 on, and the positions say so. -/
structure InSync (s : Session Token) (c : Context Token) : Prop where
  memory : s.memory = layoutFrom 0 c.tokens
  system : s.systemPromptPosition = c.system.length
  current : s.currentPosition = c.length

/-- There is a cell at or beyond the position where the next token goes. -/
def Ahead (s : Session Token) : Prop := ∃ cell ∈ s.memory, s.currentPosition ≤ cell.1

/-- The latest part of the conversation, and not nothing of it. -/
def Latest (kept conversation : List Token) : Prop :=
  kept <:+ conversation ∧ (kept = [] → conversation = [])

/-- The memory is the latest part of `conversation` after the tokens `system`, or it runs ahead. -/
def Tracked (system conversation : List Token) (s : Session Token) : Prop :=
  (∃ c, InSync s c ∧ c.system = system ∧ Latest c.kept conversation) ∨ Ahead s

theorem Latest.refl (kept : List Token) : Latest kept kept := ⟨List.suffix_rfl, id⟩

theorem Latest.trans {a b c : List Token} (h : Latest a b) (h' : Latest b c) : Latest a c :=
  ⟨h.1.trans h'.1, fun hnil => h'.2 (h.2 hnil)⟩

theorem Latest.append {kept conversation : List Token} (h : Latest kept conversation)
    (tokens : List Token) : Latest (kept ++ tokens) (conversation ++ tokens) := by
  refine ⟨?_, fun hnil => ?_⟩
  · obtain ⟨older, rfl⟩ := h.1
    rw [List.append_assoc]
    exact List.suffix_append ..
  · obtain ⟨hkept, htokens⟩ := List.append_eq_nil_iff.mp hnil
    rw [h.2 hkept, htokens, List.append_nil]

/-- The shift keeps the younger half. -/
theorem latest_forget (c : Context Token) : Latest c.forget.kept c.kept := by
  refine ⟨List.drop_suffix .., fun hnil => ?_⟩
  have hlen : c.forget.kept.length = 0 := by rw [hnil, List.length_nil]
  rw [Context.length_kept_forget] at hlen
  exact List.length_eq_zero_iff.mp (by omega)

theorem Tracked.mono {system kept conversation : List Token} {s : Session Token}
    (h : Tracked system kept s) (hlatest : Latest kept conversation) :
    Tracked system conversation s :=
  h.imp (fun ⟨c, hsync, hsystem, hkept⟩ => ⟨c, hsync, hsystem, hkept.trans hlatest⟩) id

theorem InSync.not_ahead {s : Session Token} {c : Context Token} (h : InSync s c) : ¬ Ahead s := by
  rintro ⟨cell, hcell, hle⟩
  rw [h.memory] at hcell
  have hlt := (mem_layoutFrom hcell).2
  have hcur := h.current
  unfold Context.length at hcur
  omega

theorem InSync.nDiscard {s : Session Token} {c : Context Token} (h : InSync s c) :
    s.nDiscard = c.kept.length / 2 := by
  unfold Session.nDiscard
  rw [h.current, h.system, Context.length_eq, Nat.add_sub_cancel_left]

/-! ## The memory -/

theorem seqAdd_eq_shiftRange (p0 p1 : Nat) (shift : Int) (memory : List (Nat × Token)) :
    seqAdd p0 p1 shift memory = shiftRange p0 p1 shift memory := by
  unfold seqAdd
  split
  · next h =>
    rcases h with rfl | rfl
    · -- a shift by 0 keeps every cell where it is
      unfold shiftRange
      have hcell : shiftCell p0 p1 0 = some (α := Nat × Token) := by
        funext c
        unfold shiftCell
        simp
      rw [hcell, List.filterMap_some]
    · rw [shiftRange_of_outside]
      intro c _
      omega
  · rfl

theorem llamaDecode_eq_some {start : Nat} {batch : List Token} {computed : Bool}
    {memory after : List (Nat × Token)}
    (h : llamaDecode (layoutFrom start batch) computed memory = some after) :
    batch ≠ [] ∧ after = memory ++ layoutFrom start batch ∧ computed = true ∧
      memory.length + batch.length ≤ defaultContextSize := by
  cases batch with
  | nil => simp [llamaDecode] at h
  | cons x xs =>
    rw [layoutFrom] at h ⊢
    simp only [llamaDecode] at h
    split at h
    · exact absurd h (by simp)
    split at h
    · exact absurd h (by simp)
    next hroom =>
    split at h
    · next hcomputed =>
      refine ⟨List.cons_ne_nil _ _, (Option.some.inj h).symm, hcomputed, ?_⟩
      simp only [List.length_cons, length_layoutFrom] at hroom
      rw [List.length_cons]
      omega
    · exact absurd h (by simp)

/-- A batch at the end of what is laid out. -/
theorem llamaDecode_layout (old : List Token) (computed : Bool) {batch : List Token}
    (hne : batch ≠ []) :
    llamaDecode (layoutFrom old.length batch) computed (layoutFrom 0 old) =
      if computed = true ∧ old.length + batch.length ≤ defaultContextSize then
        some (layoutFrom 0 (old ++ batch))
      else none := by
  cases batch with
  | nil => exact absurd rfl hne
  | cons x xs =>
    have hlast : ((lastPosition (layoutFrom 0 old)).any fun last => decide (old.length ≠ last + 1)) =
        false := by
      cases old with
      | nil => rfl
      | cons y ys => simp [lastPosition_layoutFrom]
    rw [layoutFrom_append, Nat.zero_add]
    simp only [layoutFrom, llamaDecode, hlast, Bool.false_eq_true, if_false, length_layoutFrom,
      List.length_cons]
    by_cases hroom : defaultContextSize < old.length + (xs.length + 1)
    · rw [if_pos hroom, if_neg (by omega)]
    · rw [if_neg hroom]
      cases computed with
      | true => rw [if_pos rfl, if_pos ⟨rfl, by omega⟩]
      | false => rw [if_neg Bool.false_ne_true, if_neg fun h => Bool.false_ne_true h.1]

/-- A batch that does not start right after the last cell is refused. -/
theorem llamaDecode_of_last {start last : Nat} {batch : List Token} {computed : Bool}
    {memory : List (Nat × Token)} (hlast : lastPosition memory = some last)
    (hne : start ≠ last + 1) : llamaDecode (layoutFrom start batch) computed memory = none := by
  cases batch with
  | nil => rfl
  | cons x xs => simp [layoutFrom, llamaDecode, hlast, hne]

/-- A batch that starts at or before a cell in use is refused. -/
theorem llamaDecode_of_le {start : Nat} {batch : List Token} {computed : Bool}
    {memory : List (Nat × Token)} {cell : Nat × Token} (hcell : cell ∈ memory)
    (hle : start ≤ cell.1) : llamaDecode (layoutFrom start batch) computed memory = none := by
  cases hlast : lastPosition memory with
  | none =>
    rw [lastPosition_eq_none] at hlast
    rw [hlast] at hcell
    exact absurd hcell List.not_mem_nil
  | some last =>
    have hmax := le_lastPosition hlast hcell
    exact llamaDecode_of_last hlast (by omega)

/-! ## The shift -/

namespace Session

variable {s : Session Token} {c : Context Token}

@[simp] theorem shiftContext_currentPosition :
    s.shiftContext.currentPosition = s.currentPosition - s.nDiscard := rfl

@[simp] theorem shiftContext_systemPromptPosition :
    s.shiftContext.systemPromptPosition = s.systemPromptPosition := rfl

@[simp] theorem shiftContext_stopGenerationPosition :
    s.shiftContext.stopGenerationPosition = s.stopGenerationPosition := rfl

theorem shiftContext_memory : s.shiftContext.memory =
    shiftRange (s.systemPromptPosition + s.nDiscard) s.currentPosition (-(s.nDiscard : Int))
      (removeRange s.systemPromptPosition (s.systemPromptPosition + s.nDiscard) s.memory) :=
  seqAdd_eq_shiftRange ..

/-- **The shift forgets the older half of the conversation.** -/
theorem shiftContext_inSync (h : InSync s c) : InSync s.shiftContext c.forget where
  memory := by
    have hsplit : c.tokens =
        c.system ++ c.kept.take (c.kept.length / 2) ++ c.kept.drop (c.kept.length / 2) := by
      rw [List.append_assoc, List.take_append_drop]
      rfl
    have hmid : (c.kept.take (c.kept.length / 2)).length = c.kept.length / 2 := by
      rw [List.length_take]
      omega
    have hcur : s.currentPosition = c.tokens.length := h.current
    have := shiftRange_removeRange_layoutFrom c.system (c.kept.take (c.kept.length / 2))
      (c.kept.drop (c.kept.length / 2))
    rw [← hsplit, hmid] at this
    rw [shiftContext_memory, h.nDiscard, h.memory, h.system, hcur, this]
    rfl
  system := h.system
  current := by
    rw [shiftContext_currentPosition, h.current, h.nDiscard, Context.length_forget]

theorem shiftContext_of_nDiscard_eq_zero (h : s.nDiscard = 0) : s.shiftContext = s := by
  have hmemory : s.shiftContext.memory = s.memory := by
    rw [shiftContext_memory, h, Nat.add_zero, removeRange_of_outside fun c _ => by omega]
    have hshift := seqAdd_eq_shiftRange s.systemPromptPosition s.currentPosition 0 s.memory
    unfold seqAdd at hshift
    rw [if_pos (Or.inl rfl)] at hshift
    exact hshift.symm
  have hcurrent : s.shiftContext.currentPosition = s.currentPosition := by
    rw [shiftContext_currentPosition, h, Nat.sub_zero]
  cases s
  simp only [shiftContext] at hmemory hcurrent ⊢
  simp [hmemory, hcurrent]

/-- A cell at or beyond the current position is out of reach of a shift. -/
theorem mem_shiftContext {cell : Nat × Token} (hcell : cell ∈ s.memory)
    (hle : s.currentPosition ≤ cell.1) : cell ∈ s.shiftContext.memory := by
  have hsys := s.system_add_nDiscard_le
  rw [shiftContext_memory]
  refine mem_shiftRange_of_le (mem_removeRange.mpr ⟨hcell, ?_⟩) hle
  omega

/-- `s'` is `s` but for the memory and a step back of the current position. -/
structure StepsBack (s s' : Session Token) : Prop where
  system : s'.systemPromptPosition = s.systemPromptPosition
  current : s'.currentPosition ≤ s.currentPosition
  rest : s'.stopGenerationPosition = s.stopGenerationPosition ∧ s'.chatMsgs = s.chatMsgs ∧
    s'.cachedTokenChars = s.cachedTokenChars ∧ s'.assistantSs = s.assistantSs

theorem StepsBack.refl (s : Session Token) : StepsBack s s := ⟨rfl, Nat.le_refl _, rfl, rfl, rfl, rfl⟩

theorem StepsBack.trans {s s' s'' : Session Token} (h : StepsBack s s') (h' : StepsBack s' s'') :
    StepsBack s s'' := by
  obtain ⟨hstop, hchat, hcached, hassistant⟩ := h.rest
  obtain ⟨hstop', hchat', hcached', hassistant'⟩ := h'.rest
  exact ⟨h'.system.trans h.system, Nat.le_trans h'.current h.current, hstop'.trans hstop,
    hchat'.trans hchat, hcached'.trans hcached, hassistant'.trans hassistant⟩

theorem shiftContext_stepsBack (s : Session Token) : StepsBack s s.shiftContext :=
  ⟨rfl, Nat.sub_le .., rfl, rfl, rfl, rfl⟩

theorem shiftForBatch_cases (s : Session Token) (startPos i curBatchSize : Nat) :
    s.shiftForBatch startPos i curBatchSize = s ∨
      s.shiftForBatch startPos i curBatchSize = s.shiftContext := by
  unfold shiftForBatch
  split
  · exact Or.inr rfl
  · exact Or.inl rfl

theorem shiftForBatch_stepsBack (s : Session Token) (startPos i curBatchSize : Nat) :
    StepsBack s (s.shiftForBatch startPos i curBatchSize) := by
  rcases s.shiftForBatch_cases startPos i curBatchSize with h | h
  · rw [h]
    exact StepsBack.refl s
  · rw [h]
    exact s.shiftContext_stepsBack

theorem shiftWhenFull_cases (s : Session Token) :
    s.shiftWhenFull = s ∨ s.shiftWhenFull = s.shiftContext := by
  unfold shiftWhenFull
  split
  · exact Or.inr rfl
  · exact Or.inl rfl

/-! ## The loop over the batches -/

variable {computed : Nat → Bool} {startPos i : Nat} {tokens : List Token}

theorem decodeTokensFrom_of_refused {batch : List Token} {s' : Session Token}
    (hi : i < tokens.length) (hbatch : (tokens.drop i).take batchSize = batch)
    (hs : s.shiftForBatch startPos i batch.length = s')
    (h : llamaDecode (layoutFrom (startPos + i) batch) (computed i) s'.memory = none) :
    s.decodeTokensFrom computed startPos tokens i = (s', 1) := by
  unfold decodeTokensFrom
  simp only [if_pos hi, hbatch, hs, h]

theorem decodeTokensFrom_of_decoded {batch : List Token} {s' : Session Token}
    {memory : List (Nat × Token)} (hi : i < tokens.length)
    (hbatch : (tokens.drop i).take batchSize = batch)
    (hs : s.shiftForBatch startPos i batch.length = s')
    (h : llamaDecode (layoutFrom (startPos + i) batch) (computed i) s'.memory = some memory) :
    s.decodeTokensFrom computed startPos tokens i =
      decodeTokensFrom computed startPos tokens (i + batchSize) { s' with memory } := by
  rw [decodeTokensFrom]
  simp only [if_pos hi, hbatch, hs, h]

theorem decodeTokensFrom_of_le (h : tokens.length ≤ i) :
    s.decodeTokensFrom computed startPos tokens i = (s, 0) := by
  unfold decodeTokensFrom
  rw [if_neg (by omega)]

theorem length_batch (tokens : List Token) (i : Nat) :
    ((tokens.drop i).take batchSize).length = min batchSize (tokens.length - i) := by
  rw [List.length_take, List.length_drop]

/--
The rule of the loop. The offset grows until it reaches the end of the tokens.

`P` relates the offset and the session before a turn to what the loop returns from there.
-/
theorem decodeTokensFrom_rule {P : Nat → Session Token → Session Token × Nat → Prop}
    (hdone : ∀ i s, tokens.length ≤ i → P i s (s, 0))
    (hrefused : ∀ i s s', i < tokens.length →
      shiftForBatch startPos i (min batchSize (tokens.length - i)) s = s' →
      llamaDecode (layoutFrom (startPos + i) ((tokens.drop i).take batchSize)) (computed i)
        s'.memory = none → P i s (s', 1))
    (hdecoded : ∀ i s s' memory r, i < tokens.length →
      shiftForBatch startPos i (min batchSize (tokens.length - i)) s = s' →
      llamaDecode (layoutFrom (startPos + i) ((tokens.drop i).take batchSize)) (computed i)
        s'.memory = some memory →
      P (i + batchSize) { s' with memory } r → P i s r)
    (i : Nat) (s : Session Token) :
    P i s (s.decodeTokensFrom computed startPos tokens i) := by
  induction hn : tokens.length - i using Nat.strong_induction_on generalizing i s with
  | _ n ih =>
    rcases Nat.lt_or_ge i tokens.length with hi | hi
    · have hs : s.shiftForBatch startPos i ((tokens.drop i).take batchSize).length =
          s.shiftForBatch startPos i (min batchSize (tokens.length - i)) := by rw [length_batch]
      cases h : llamaDecode (layoutFrom (startPos + i) ((tokens.drop i).take batchSize))
          (computed i) (s.shiftForBatch startPos i (min batchSize (tokens.length - i))).memory with
      | none =>
        rw [decodeTokensFrom_of_refused hi rfl hs h]
        exact hrefused i s _ hi rfl h
      | some memory =>
        rw [decodeTokensFrom_of_decoded hi rfl hs h]
        refine hdecoded i s _ memory _ hi rfl h (ih _ ?_ _ _ rfl)
        unfold batchSize
        omega
    · rw [decodeTokensFrom_of_le hi]
      exact hdone i s hi

/-- The loop touches nothing but the memory and the current position. -/
theorem decodeTokensFrom_stepsBack (computed : Nat → Bool) (startPos : Nat) (tokens : List Token)
    (i : Nat) (s : Session Token) :
    StepsBack s (s.decodeTokensFrom computed startPos tokens i).1 := by
  refine decodeTokensFrom_rule (P := fun _ s r => StepsBack s r.1) ?_ ?_ ?_ i s
  · exact fun _ s _ => StepsBack.refl s
  · rintro i s _ _ rfl _
    exact shiftForBatch_stepsBack ..
  · rintro i s _ memory r _ rfl _ ih
    exact (shiftForBatch_stepsBack s startPos i _).trans ⟨ih.system, ih.current, ih.rest⟩

theorem mem_shiftForBatch {cell : Nat × Token} (hcell : cell ∈ s.memory)
    (hle : s.currentPosition ≤ cell.1) (startPos i curBatchSize : Nat) :
    cell ∈ (s.shiftForBatch startPos i curBatchSize).memory := by
  rcases s.shiftForBatch_cases startPos i curBatchSize with h | h
  · rw [h]
    exact hcell
  · rw [h]
    exact mem_shiftContext hcell hle

/-- A cell beyond the current position stays. -/
theorem decodeTokensFrom_keeps {cell : Nat × Token} (hcell : cell ∈ s.memory)
    (hle : s.currentPosition ≤ cell.1) :
    cell ∈ (s.decodeTokensFrom computed startPos tokens i).1.memory := by
  refine decodeTokensFrom_rule (P := fun _ s r => cell ∈ s.memory → s.currentPosition ≤ cell.1 →
    cell ∈ r.1.memory) ?_ ?_ ?_ i s hcell hle
  · exact fun _ _ _ h _ => h
  · rintro i s _ _ rfl _ hcell hle
    exact mem_shiftForBatch hcell hle ..
  · rintro i s _ memory r _ rfl hdecode ih hcell hle
    refine ih ?_ (Nat.le_trans (shiftForBatch_stepsBack ..).current hle)
    rw [(llamaDecode_eq_some hdecode).2.1]
    exact List.mem_append_left _ (mem_shiftForBatch hcell hle ..)

/-- Tokens that would start at or before a cell in use are refused with the first batch. -/
theorem decodeTokensFrom_of_ahead {cell : Nat × Token} (hcell : cell ∈ s.memory)
    (hle : s.currentPosition ≤ cell.1) (hstart : startPos ≤ cell.1) (hne : tokens ≠ []) :
    (s.decodeTokensFrom computed startPos tokens 0).2 = 1 := by
  rw [decodeTokensFrom_of_refused (List.length_pos_iff.mpr hne) rfl rfl
    (llamaDecode_of_le (mem_shiftForBatch hcell hle ..) hstart)]

/-- A decoded prompt ends at the last position it asked for. -/
theorem decodeTokensFrom_reaches (hi : i < tokens.length)
    (hok : (s.decodeTokensFrom computed startPos tokens i).2 = 0) :
    ∃ cell ∈ (s.decodeTokensFrom computed startPos tokens i).1.memory,
      cell.1 + 1 = startPos + tokens.length := by
  -- at the end of the tokens the last batch is in the memory
  refine decodeTokensFrom_rule (P := fun i s r =>
    (tokens.length ≤ i → ∃ cell ∈ s.memory, cell.1 + 1 = startPos + tokens.length) → r.2 = 0 →
      ∃ cell ∈ r.1.memory, cell.1 + 1 = startPos + tokens.length) ?_ ?_ ?_ i s
      (fun h => absurd hi (by omega)) hok
  · exact fun i s hle hlast _ => hlast hle
  · exact fun _ _ _ _ _ _ _ hok => absurd hok (by simp)
  · rintro i s s' memory r hi hs' hdecode ih - hok
    refine ih (fun hend => ?_) hok
    have hlen := length_batch tokens i
    obtain ⟨hne, hmem, -, -⟩ := llamaDecode_eq_some hdecode
    obtain ⟨x, xs, hbatch⟩ := List.exists_cons_of_ne_nil hne
    have hlast := lastPosition_layoutFrom (p := startPos + i) x xs
    rw [← hbatch] at hlast
    unfold lastPosition at hlast
    obtain ⟨cell, hcell, heq⟩ := List.mem_map.mp (List.max?_eq_some_iff.mp hlast).1
    refine ⟨cell, ?_, ?_⟩
    · show cell ∈ memory
      rw [hmem]
      exact List.mem_append_right _ hcell
    · rw [hbatch, List.length_cons] at hlen
      unfold batchSize at hlen hend
      omega

/-- A decoded prompt that did not fit has moved the current position back. -/
theorem decodeTokensFrom_shifts (hfull : maxBatchSize ≤ startPos + tokens.length)
    (hi : i < tokens.length) (hok : (s.decodeTokensFrom computed startPos tokens i).2 = 0) :
    (s.decodeTokensFrom computed startPos tokens i).1.currentPosition ≤
      s.currentPosition - s.nDiscard := by
  refine (decodeTokensFrom_rule (P := fun i s r => r.1.currentPosition ≤ s.currentPosition ∧
    (i < tokens.length → r.2 = 0 → r.1.currentPosition ≤ s.currentPosition - s.nDiscard))
    ?_ ?_ ?_ i s).2 hi hok
  · exact fun i s hle => ⟨Nat.le_refl _, fun hi => absurd hi (by omega)⟩
  · rintro i s _ _ rfl -
    exact ⟨(shiftForBatch_stepsBack ..).current, fun _ hok => absurd hok (by simp)⟩
  · rintro i s _ memory r hi rfl - ⟨hle, ih⟩
    refine ⟨Nat.le_trans hle (shiftForBatch_stepsBack ..).current, fun _ hok => ?_⟩
    unfold shiftForBatch at hle ih
    split at hle
    · -- this batch shifts, and the later ones only go further back
      exact hle
    · next hroom =>
      -- the last batch does not fit, so this is not the last one
      rw [if_neg hroom] at ih
      refine ih ?_ hok
      unfold maxBatchSize at hfull
      unfold batchSize at hroom ⊢
      omega

/-- Whether llama.cpp takes the batch at `i`. -/
def BatchTaken (computed : Nat → Bool) (startPos size i : Nat) : Prop :=
  computed i = true ∧ startPos + i + min batchSize (size - i) ≤ defaultContextSize

instance (computed : Nat → Bool) (startPos size i : Nat) :
    Decidable (BatchTaken computed startPos size i) := inferInstanceAs (Decidable (_ ∧ _))

theorem shiftForBatch_of_fits {n : Nat}
    (hfits : startPos + tokens.length < maxBatchSize ∨ s.nDiscard = 0)
    (hn : i + n ≤ tokens.length) : s.shiftForBatch startPos i n = s := by
  unfold shiftForBatch
  split
  · next hfull =>
    rcases hfits with hroom | hzero
    · unfold maxBatchSize at hroom
      omega
    · exact shiftContext_of_nDiscard_eq_zero hzero
  · rfl

/-- The loop from `i` on took every batch up to `k` and laid out the tokens up to there. -/
structure StopsAt (computed : Nat → Bool) (startPos : Nat) (old tokens : List Token) (i : Nat)
    (s : Session Token) (r : Session Token × Nat) (k : Nat) : Prop where
  le : i ≤ k
  dvd : batchSize ∣ k - i
  result : r = ({ s with memory := layoutFrom 0 (old ++ tokens.take k) },
    if tokens.length ≤ k then 0 else 1)
  taken : ∀ j, i ≤ j → j < k → batchSize ∣ j - i → BatchTaken computed startPos tokens.length j
  refused : k < tokens.length → ¬ BatchTaken computed startPos tokens.length k

variable {old : List Token}

/-- The next batch after what is laid out. -/
theorem llamaDecode_batch (hstart : startPos = old.length) (hi : i < tokens.length) :
    llamaDecode (layoutFrom (startPos + i) ((tokens.drop i).take batchSize)) (computed i)
        (layoutFrom 0 (old ++ tokens.take i)) =
      if BatchTaken computed startPos tokens.length i then
        some (layoutFrom 0 (old ++ tokens.take (i + batchSize)))
      else none := by
  have hlen : (old ++ tokens.take i).length = startPos + i := by
    rw [List.length_append, List.length_take, hstart]
    omega
  have hne : (tokens.drop i).take batchSize ≠ [] := by
    rw [← List.length_pos_iff, length_batch]
    unfold batchSize
    omega
  have hdecode := llamaDecode_layout (old ++ tokens.take i) (computed i) hne
  rw [length_batch, List.append_assoc, ← List.take_add, hlen] at hdecode
  exact hdecode

/-- **The loop without a shift.** It lays out the tokens up to the first batch that is not taken. -/
theorem decodeTokensFrom_layout (computed : Nat → Bool) (hstart : startPos = old.length)
    (hfits : startPos + tokens.length < maxBatchSize ∨ s.nDiscard = 0)
    (hmem : s.memory = layoutFrom 0 (old ++ tokens.take i)) :
    ∃ k, StopsAt computed startPos old tokens i s
      (s.decodeTokensFrom computed startPos tokens i) k := by
  refine decodeTokensFrom_rule (P := fun i s r =>
    startPos + tokens.length < maxBatchSize ∨ s.nDiscard = 0 →
    s.memory = layoutFrom 0 (old ++ tokens.take i) →
    ∃ k, StopsAt computed startPos old tokens i s r k) ?_ ?_ ?_ i s hfits hmem
  · intro i s hle _ hmem
    refine ⟨i, Nat.le_refl i, ⟨0, by omega⟩, ?_, fun j _ _ => by omega, fun _ => by omega⟩
    rw [← hmem, if_pos hle]
  · rintro i s _ hi rfl hdecode hfits hmem
    rw [shiftForBatch_of_fits hfits (by omega), hmem, llamaDecode_batch hstart hi] at hdecode
    rw [shiftForBatch_of_fits hfits (by omega)]
    refine ⟨i, Nat.le_refl i, ⟨0, by omega⟩, ?_, fun j _ _ => by omega, fun _ htaken => ?_⟩
    · rw [← hmem, if_neg (by omega)]
    · rw [if_pos htaken] at hdecode
      exact Option.some_ne_none _ hdecode
  · rintro i s _ memory r hi rfl hdecode ih hfits hmem
    rw [shiftForBatch_of_fits hfits (by omega), hmem, llamaDecode_batch hstart hi] at hdecode
    rw [shiftForBatch_of_fits hfits (by omega)] at ih
    split at hdecode
    · next htaken =>
      obtain ⟨k, hk⟩ := ih hfits (Option.some.inj hdecode).symm
      have hik := hk.le
      refine ⟨k, by omega, ?_, hk.result, fun j hij hjk hdvd => ?_, hk.refused⟩
      · have heq : k - i = (k - (i + batchSize)) + batchSize := by omega
        rw [heq]
        exact Nat.dvd_add_self_right.mpr hk.dvd
      · rcases Nat.eq_or_lt_of_le hij with rfl | hlt
        · exact htaken
        · -- the next offset after `i` is a whole batch away
          have hbatch := Nat.le_of_dvd (by omega) hdvd
          refine hk.taken j (by omega) hjk ?_
          have heq : j - i = (j - (i + batchSize)) + batchSize := by omega
          rw [heq] at hdvd
          exact Nat.dvd_add_self_right.mp hdvd
    · exact absurd hdecode (Option.some_ne_none _).symm

end Session

end Kaede.AiChat
