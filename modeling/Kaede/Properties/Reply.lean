import Kaede.Properties.ContextLayout

/-!
# The reply to a user prompt

The engine asks for tokens until a call returns `nullptr`.

* `length_reply` — a reply that meets no end token has `n_predict` tokens and as many more as the
  prompt has, or none when their number overflows, or it never ends by itself
* `reply_text` — the texts of a reply are the pieces of its tokens up to the last place where all of
  them together are valid UTF-8
-/

namespace Kaede.AiChat

open Infra Session

variable {Token : Type*} {m : Model Token}

/--
The texts until a call returns `nullptr`, and the session after it.

Each element of the list is what the sampler picks and whether llama.cpp gets it computed.
-/
def generate (m : Model Token) : Session Token → List (Token × Bool) →
    List (List UInt8) × Session Token
  | s, [] => ([], s)
  | s, (newTokenId, computed) :: sampled =>
    match s.generateNextToken m newTokenId computed with
    | (s', none) => ([], s')
    | (s', some text) => (text :: (generate m s' sampled).1, (generate m s' sampled).2)

variable {s s' : Session Token} {c : Context Token} {newTokenId : Token} {computed : Bool}
  {sampled : List (Token × Bool)}

@[simp] theorem generate_nil : generate m s [] = ([], s) := rfl

theorem generate_of_none (h : s.generateNextToken m newTokenId computed = (s', none)) :
    generate m s ((newTokenId, computed) :: sampled) = ([], s') := by
  unfold generate
  rw [h]

theorem generate_of_some {text : List UInt8}
    (h : s.generateNextToken m newTokenId computed = (s', some text)) :
    generate m s ((newTokenId, computed) :: sampled) =
      (text :: (generate m s' sampled).1, (generate m s' sampled).2) := by
  conv_lhs => unfold generate
  rw [h]

/-! ## The length of a reply -/

theorem emitToken_of_not_eog (h : m.isEog newTokenId = false) (s : Session Token) :
    ∃ text, (s.emitToken m newTokenId).2 = some text := by
  unfold emitToken
  rw [if_neg (by rw [h]; exact Bool.false_ne_true)]
  simp only []
  split
  · exact ⟨_, rfl⟩
  · exact ⟨_, rfl⟩

/-- The conversation after the shift that a full context asks for. -/
def Context.roomFor (c : Context Token) : Context Token :=
  if maxBatchSize ≤ c.length then c.forget else c

theorem Context.roomFor_of_lt (h : c.length < maxBatchSize) : c.roomFor = c :=
  if_neg (Nat.not_le.mpr h)

theorem Context.roomFor_of_le (h : maxBatchSize ≤ c.length) : c.roomFor = c.forget := if_pos h

/-- A token that is computed and does not end the reply. -/
theorem generateNextToken_of_going (h : InSync s c) (hroom : c.roomFor.length < defaultContextSize)
    (heog : m.isEog newTokenId = false) :
    (s.stopGenerationPosition.toInt ≤ c.roomFor.length →
        s.generateNextToken m newTokenId true = (s.shiftWhenFull, none)) ∧
      (c.roomFor.length < s.stopGenerationPosition.toInt → ∃ s' text,
        s.generateNextToken m newTokenId true = (s', some text) ∧
          InSync s' (c.roomFor.extend [newTokenId]) ∧
          s'.stopGenerationPosition = s.stopGenerationPosition) := by
  have hsync : InSync s.shiftWhenFull c.roomFor := shiftWhenFull_inSync h
  have hstop : s.shiftWhenFull.stopGenerationPosition = s.stopGenerationPosition := by
    rcases s.shiftWhenFull_cases with heq | heq
    · rw [heq]
    · rw [heq]
      rfl
  have hdecode : llamaDecode [(s.shiftWhenFull.currentPosition, newTokenId)] true
      s.shiftWhenFull.memory = some (layoutFrom 0 (c.roomFor.tokens ++ [newTokenId])) := by
    rw [llamaDecode_token hsync, if_pos]
    exact ⟨rfl, hroom⟩
  have hcur := hsync.current
  rcases generateNextToken_cases m newTokenId true s with ⟨heq, hwhy⟩ | ⟨hgo, memory, hmem, heq⟩
  · refine ⟨fun _ => heq, fun hgo => ?_⟩
    rcases hwhy with hle | hnone
    · rw [hstop, hcur] at hle
      omega
    · rw [hdecode] at hnone
      exact absurd hnone (by simp)
  · rw [hstop, hcur] at hgo
    rw [hdecode] at hmem
    refine ⟨fun hle => by omega, fun _ => ?_⟩
    have happend := appendToken_inSync newTokenId hsync
    rw [Option.some.inj hmem] at happend
    obtain ⟨text, htext⟩ := emitToken_of_not_eog heog (s.shiftWhenFull.appendToken memory)
    obtain ⟨hm, hsys, hc, hs⟩ := emitToken_fields m newTokenId (s.shiftWhenFull.appendToken memory)
    refine ⟨_, text, heq.trans (Prod.ext rfl htext), ⟨hm.trans happend.memory,
      hsys.trans happend.system, hc.trans happend.current⟩, hs.trans hstop⟩

/-- Every sampled token is computed and none of them ends the reply. -/
def NeverEnds (m : Model Token) (sampled : List (Token × Bool)) : Prop :=
  ∀ x ∈ sampled, x.2 = true ∧ m.isEog x.1 = false

/-- A stop position within the context, or already passed, is where the reply ends. -/
theorem length_generate_of_lt (hsampled : NeverEnds m sampled) (h : InSync s c)
    (hroom : c.roomFor.length < defaultContextSize)
    (hstop : s.stopGenerationPosition.toInt < maxBatchSize ∨
      s.stopGenerationPosition.toInt ≤ c.roomFor.length) :
    (generate m s sampled).1.length =
      min sampled.length (s.stopGenerationPosition.toInt - c.roomFor.length).toNat := by
  induction sampled generalizing s c with
  | nil => simp
  | cons x sampled ih =>
    obtain ⟨newTokenId, computed⟩ := x
    obtain ⟨⟨hcomputed, heog⟩, hrest⟩ := List.forall_mem_cons.mp hsampled
    simp only [] at hcomputed heog
    obtain ⟨hend, hgo⟩ := generateNextToken_of_going h hroom heog
    rw [hcomputed]
    rcases Int.lt_or_le c.roomFor.length s.stopGenerationPosition.toInt with hlt | hle
    · obtain ⟨s', text, heq, hsync, hsame⟩ := hgo hlt
      have hlen : (c.roomFor.extend [newTokenId]).length = c.roomFor.length + 1 :=
        Context.length_extend _
      -- before the stop position there is nothing to shift
      have hnext : (c.roomFor.extend [newTokenId]).roomFor = c.roomFor.extend [newTokenId] :=
        Context.roomFor_of_lt (by omega)
      rw [generate_of_some heq, List.length_cons, List.length_cons,
        ih hrest hsync (by rw [hnext]; unfold maxBatchSize at hstop; omega)
          (by rw [hsame, hnext]; omega), hsame, hnext, hlen]
      omega
    · rw [generate_of_none (hend hle), List.length_nil]
      omega

/-- After a token the next one goes no further, or it goes where there is room. -/
theorem Context.length_roomFor_next (newTokenId : Token) (hkept : c.kept ≠ []) :
    (c.roomFor.extend [newTokenId]).roomFor.length ≤ c.roomFor.length ∨
      (c.roomFor.extend [newTokenId]).roomFor.length < maxBatchSize := by
  have hpos : 0 < c.kept.length := List.length_pos_iff.mpr hkept
  have hroomKept : 0 < c.roomFor.kept.length := by
    unfold roomFor
    split
    · rw [length_kept_forget]
      omega
    · exact hpos
  have hlen : (c.roomFor.extend [newTokenId]).length = c.roomFor.length + 1 := length_extend _
  have hkeptLen : (c.roomFor.extend [newTokenId]).kept.length = c.roomFor.kept.length + 1 :=
    List.length_append
  rcases Nat.lt_or_ge (c.roomFor.length + 1) maxBatchSize with hlt | hge
  · rw [roomFor_of_lt (by omega), hlen]
    exact Or.inr hlt
  · rw [roomFor_of_le (by omega), length_forget, hlen, hkeptLen]
    exact Or.inl (by omega)

/-- A stop position that the shift keeps out of reach never ends the reply. -/
theorem length_generate_of_le (hsampled : NeverEnds m sampled) (h : InSync s c)
    (hkept : c.kept ≠ []) (hroom : c.roomFor.length < defaultContextSize)
    (hahead : c.roomFor.length < s.stopGenerationPosition.toInt)
    (hstop : maxBatchSize ≤ s.stopGenerationPosition.toInt) :
    (generate m s sampled).1.length = sampled.length := by
  induction sampled generalizing s c with
  | nil => rfl
  | cons x sampled ih =>
    obtain ⟨newTokenId, computed⟩ := x
    obtain ⟨⟨hcomputed, heog⟩, hrest⟩ := List.forall_mem_cons.mp hsampled
    simp only [] at hcomputed heog
    obtain ⟨s', text, heq, hsync, hsame⟩ := (generateNextToken_of_going h hroom heog).2 hahead
    have hnext := Context.length_roomFor_next newTokenId hkept
    have hmax : maxBatchSize ≤ defaultContextSize := Nat.sub_le ..
    rw [hcomputed, generate_of_some heq, List.length_cons, List.length_cons,
      ih hrest hsync (by simp [Context.extend]) (by omega) (by rw [hsame]; omega)
        (by rw [hsame]; exact hstop)]

variable {prompt : List UInt8} {nPredict : Int32} {answers : Nat → Bool}

/-- A position and a number as a 32-bit number: the sum, unless it overflows. -/
def wrappedSum (position : Nat) (n : Int) : Int :=
  if position + n < 2147483648 then position + n else position + n - 4294967296

theorem toInt_add_eq_wrappedSum {position : Nat} (h : position < 2147483648) :
    (Int32.ofNat position + nPredict).toInt = wrappedSum position nPredict.toInt := by
  have hlow := nPredict.le_toInt
  have hhigh := nPredict.toInt_lt
  unfold wrappedSum
  rw [Int32.toInt_add, Int32.toInt_ofNat_of_lt (by omega), Int.bmod_def]
  split <;> split <;> omega

theorem processUserPrompt_stopGenerationPosition
    (hok : (s.processUserPrompt m prompt nPredict answers).2 = 0) :
    (s.processUserPrompt m prompt nPredict answers).1.stopGenerationPosition =
      .ofNat ((s.processUserPrompt m prompt nPredict answers).1.currentPosition +
        (s.promptTokens m .user prompt).length) + nPredict := by
  rcases s.processUserPrompt_cases (m := m) prompt nPredict answers with ⟨-, hres⟩ | ⟨-, hres⟩
  · rw [hres, Int32.ofNat_add]
    rfl
  · rw [hres] at hok
    exact absurd hok (by simp)

/--
**The length of a reply.** The prompt is counted twice in the stop position, so a reply that meets no
end token has as many tokens as were asked for and as many more as the prompt has. When that stop
position overflows there are none, and when it lies beyond what the context shift lets
`current_position` reach, the reply never ends.
-/
theorem length_reply (h : InSync s c) (hsystem : c.system.length ≤ maxBatchSize)
    (hne : s.promptTokens m .user prompt ≠ [])
    (hle : (s.promptTokens m .user prompt).length ≤ maxBatchSize)
    (hfits : c.length + (s.promptTokens m .user prompt).length < maxBatchSize ∨
      c.kept.length < 2 ∧ c.length + (s.promptTokens m .user prompt).length ≤ defaultContextSize)
    (hanswers : ∀ i, answers i = true) (hsampled : NeverEnds m sampled) {start : Nat} {stop : Int}
    (hstart : (c.extend (s.promptTokens m .user prompt)).roomFor.length = start)
    (hstop : wrappedSum (c.length + 2 * (s.promptTokens m .user prompt).length) nPredict.toInt =
      stop) :
    (generate m (s.processUserPrompt m prompt nPredict answers).1 sampled).1.length =
      if stop < maxBatchSize ∨ stop ≤ start then min sampled.length (stop - start).toNat
      else sampled.length := by
  have hgoes := (fits_batchesTaken_iff (List.length_pos_iff.mpr hne)).mpr
    ⟨hfits, fun j _ _ => hanswers j⟩
  obtain ⟨hcode, hsync, -⟩ | ⟨-, -, hnot⟩ := processUserPrompt_of_inSync nPredict answers h hle hne
  swap
  · exact absurd hgoes hnot
  have hposition := processUserPrompt_stopGenerationPosition hcode
  rw [hsync.current, Context.length_extend] at hposition
  have hlen : (c.extend (s.promptTokens m .user prompt)).length =
      c.length + (s.promptTokens m .user prompt).length := Context.length_extend _
  have hkeptLen : (c.extend (s.promptTokens m .user prompt)).kept.length =
      c.kept.length + (s.promptTokens m .user prompt).length := List.length_append
  have hsize := List.length_pos_iff.mpr hne
  have hkept : (c.extend (s.promptTokens m .user prompt)).kept ≠ [] := by
    rw [← List.length_pos_iff, hkeptLen]
    omega
  have hroom : (c.extend (s.promptTokens m .user prompt)).roomFor.length < defaultContextSize := by
    have hcount := c.length_eq
    unfold Context.roomFor
    unfold maxBatchSize defaultContextSize overflowHeadroom at *
    split
    · rw [Context.length_forget, hlen, hkeptLen]
      omega
    · omega
  have htoInt : (s.processUserPrompt m prompt nPredict
      answers).1.stopGenerationPosition.toInt = stop := by
    rw [hposition, toInt_add_eq_wrappedSum (by unfold maxBatchSize defaultContextSize at *; omega),
      ← hstop]
    congr 1
    omega
  split
  · next hreached =>
    rw [length_generate_of_lt hsampled hsync hroom (by rw [htoInt, hstart]; exact hreached), htoInt,
      hstart]
  · next hfar =>
    exact length_generate_of_le hsampled hsync hkept hroom (by omega) (by omega)

/-- A first prompt of two bytes: with 16 tokens asked for the reply has 18, with all that can be asked
for it is empty. -/
theorem length_reply_first :
    (generate byteModel ((Session.prepared : Session UInt8).processUserPrompt byteModel
        [0x68, 0x69] 16 fun _ => true).1 (List.replicate 40 (0x61, true))).1.length = 18 ∧
      (generate byteModel ((Session.prepared : Session UInt8).processUserPrompt byteModel
        [0x68, 0x69] Int32.maxValue fun _ => true).1 (List.replicate 40 (0x61, true))).1.length =
          0 := by
  have hsync : InSync (Session.prepared : Session UInt8) ⟨[], []⟩ := ⟨rfl, rfl, rfl⟩
  have hprompt : (Session.prepared : Session UInt8).promptTokens byteModel .user [0x68, 0x69] =
      [0x68, 0x69] := rfl
  have hsampled : NeverEnds byteModel (List.replicate 40 (0x61, true)) := by
    intro x hx
    rw [List.eq_of_mem_replicate hx]
    exact ⟨rfl, rfl⟩
  have hne : (Session.prepared : Session UInt8).promptTokens byteModel .user [0x68, 0x69] ≠ [] :=
    List.cons_ne_nil _ _
  have hreply := fun nPredict : Int32 => length_reply hsync (by decide) hne (by decide)
    (Or.inl (by decide)) (fun _ => rfl) hsampled rfl (show wrappedSum _ nPredict.toInt = _ from rfl)
  exact ⟨hreply 16, hreply Int32.maxValue⟩

/-! ## The text of a reply -/

/-- No piece holds a NUL. -/
def NoNul (m : Model Token) (sampled : List (Token × Bool)) : Prop :=
  ∀ x ∈ sampled, ∀ b ∈ m.tokenToPiece x.1, b ≠ 0x00

/-- The pieces of the sampled tokens. -/
def pieces (m : Model Token) (sampled : List (Token × Bool)) : List (List UInt8) :=
  sampled.map fun x => m.tokenToPiece x.1

/-- What a decoded token does to the text: it ends the reply, or its piece is pushed. -/
theorem emitToken_text (hcached : ∀ b ∈ s.cachedTokenChars, b ≠ 0x00)
    (hpiece : ∀ b ∈ m.tokenToPiece newTokenId, b ≠ 0x00) :
    ((s.emitToken m newTokenId).2 = none ∧
        (s.emitToken m newTokenId).1.chatMsgs = s.chatMsgs ++ [⟨.assistant, s.assistantSs⟩]) ∨
      ((s.emitToken m newTokenId).2 =
          some (push isValidUtf8 s.cachedTokenChars (m.tokenToPiece newTokenId)).1 ∧
        (s.emitToken m newTokenId).1.cachedTokenChars =
          (push isValidUtf8 s.cachedTokenChars (m.tokenToPiece newTokenId)).2 ∧
        (s.emitToken m newTokenId).1.assistantSs = s.assistantSs ++
          (push isValidUtf8 s.cachedTokenChars (m.tokenToPiece newTokenId)).1 ∧
        (s.emitToken m newTokenId).1.chatMsgs = s.chatMsgs) := by
  have hnoNul : cString (s.cachedTokenChars ++ m.tokenToPiece newTokenId) =
      s.cachedTokenChars ++ m.tokenToPiece newTokenId := by
    refine cString_of_noNul fun b hb => ?_
    rcases List.mem_append.mp hb with hb | hb
    · exact hcached b hb
    · exact hpiece b hb
  unfold emitToken
  split
  · exact Or.inl ⟨rfl, rfl⟩
  · simp only [hnoNul]
    unfold push
    split
    · exact Or.inr ⟨rfl, rfl, rfl, rfl⟩
    · refine Or.inr ⟨rfl, rfl, ?_, rfl⟩
      exact (List.append_nil _).symm

/-- What a call does to the text. -/
theorem generateNextToken_text (computed : Bool) (hcached : ∀ b ∈ s.cachedTokenChars, b ≠ 0x00)
    (hpiece : ∀ b ∈ m.tokenToPiece newTokenId, b ≠ 0x00) :
    ((s.generateNextToken m newTokenId computed).2 = none ∧
        ((s.generateNextToken m newTokenId computed).1.chatMsgs = s.chatMsgs ∨
          (s.generateNextToken m newTokenId computed).1.chatMsgs =
            s.chatMsgs ++ [⟨.assistant, s.assistantSs⟩])) ∨
      ((s.generateNextToken m newTokenId computed).2 =
          some (push isValidUtf8 s.cachedTokenChars (m.tokenToPiece newTokenId)).1 ∧
        (s.generateNextToken m newTokenId computed).1.cachedTokenChars =
          (push isValidUtf8 s.cachedTokenChars (m.tokenToPiece newTokenId)).2 ∧
        (s.generateNextToken m newTokenId computed).1.assistantSs = s.assistantSs ++
          (push isValidUtf8 s.cachedTokenChars (m.tokenToPiece newTokenId)).1 ∧
        (s.generateNextToken m newTokenId computed).1.chatMsgs = s.chatMsgs) := by
  obtain ⟨-, hchat, hcache, hassistant⟩ : s.shiftWhenFull.stopGenerationPosition =
      s.stopGenerationPosition ∧ s.shiftWhenFull.chatMsgs = s.chatMsgs ∧
      s.shiftWhenFull.cachedTokenChars = s.cachedTokenChars ∧
      s.shiftWhenFull.assistantSs = s.assistantSs := by
    rcases s.shiftWhenFull_cases with heq | heq
    · rw [heq]
      exact ⟨rfl, rfl, rfl, rfl⟩
    · rw [heq]
      exact s.shiftContext_stepsBack.rest
  rcases generateNextToken_cases m newTokenId computed s with ⟨heq, -⟩ | ⟨-, memory, -, heq⟩
  · rw [heq]
    exact Or.inl ⟨rfl, Or.inl hchat⟩
  · have htext := emitToken_text (s := s.shiftWhenFull.appendToken memory)
      (by rw [← hcache] at hcached; exact hcached) hpiece
    have hcached' : (s.shiftWhenFull.appendToken memory).cachedTokenChars = s.cachedTokenChars := hcache
    have hchat' : (s.shiftWhenFull.appendToken memory).chatMsgs = s.chatMsgs := hchat
    have hassistant' : (s.shiftWhenFull.appendToken memory).assistantSs = s.assistantSs := hassistant
    rw [hcached', hchat', hassistant'] at htext
    rw [heq]
    rcases htext with ⟨hnone, hmsgs⟩ | hsome
    · exact Or.inl ⟨hnone, Or.inr hmsgs⟩
    · exact Or.inr hsome

/-- No byte of a list of texts is a NUL. -/
theorem noNul_pieces (h : NoNul m sampled) (n : Nat) :
    ∀ b ∈ (pieces m (sampled.take n)).flatten, b ≠ 0x00 := by
  intro b hb
  obtain ⟨piece, hpiece, hbp⟩ := List.mem_flatten.mp hb
  obtain ⟨x, hx, rfl⟩ := List.mem_map.mp hpiece
  exact h x (List.mem_of_mem_take hx) b hbp

theorem noNul_push {held piece : List UInt8} (hheld : ∀ b ∈ held, b ≠ 0x00)
    (hpiece : ∀ b ∈ piece, b ≠ 0x00) : ∀ b ∈ (push isValidUtf8 held piece).2, b ≠ 0x00 := by
  unfold push
  split
  · simp
  · intro b hb
    rcases List.mem_append.mp hb with hb | hb
    · exact hheld b hb
    · exact hpiece b hb

/-- The texts are what the pieces hand out, and the message that is recorded is made of them. -/
theorem generate_text (hsampled : NoNul m sampled) (hcached : ∀ b ∈ s.cachedTokenChars, b ≠ 0x00) :
    (generate m s sampled).1 = handedOut isValidUtf8 s.cachedTokenChars
        (pieces m (sampled.take (generate m s sampled).1.length)) ∧
      ((generate m s sampled).2.chatMsgs = s.chatMsgs ∨
        (generate m s sampled).2.chatMsgs = s.chatMsgs ++
          [⟨.assistant, s.assistantSs ++ (generate m s sampled).1.flatten⟩]) := by
  induction sampled generalizing s with
  | nil => exact ⟨rfl, Or.inl rfl⟩
  | cons x sampled ih =>
    obtain ⟨newTokenId, computed⟩ := x
    obtain ⟨hpiece, hrest⟩ := List.forall_mem_cons.mp hsampled
    rcases generateNextToken_text computed hcached hpiece with
      ⟨hnone, hchat⟩ | ⟨htext, hcache, hassistant, hchat⟩
    · rw [generate_of_none (Prod.ext rfl hnone)]
      refine ⟨rfl, ?_⟩
      rw [List.flatten_nil, List.append_nil]
      exact hchat
    · rw [generate_of_some (Prod.ext rfl htext)]
      obtain ⟨htexts, hmsgs⟩ := ih hrest (by rw [hcache]; exact noNul_push hcached hpiece)
      rw [hcache] at htexts
      rw [hchat, hassistant] at hmsgs
      refine ⟨?_, ?_⟩
      · rw [List.length_cons, List.take_succ_cons]
        show _ :: _ = _ :: handedOut isValidUtf8 _ (pieces m _)
        rw [← htexts]
      · rw [List.flatten_cons, ← List.append_assoc]
        exact hmsgs

/-- A prompt starts the reply anew. -/
theorem processUserPrompt_short (m : Model Token) (prompt : List UInt8) (nPredict : Int32)
    (answers : Nat → Bool) (s : Session Token) :
    (s.processUserPrompt m prompt nPredict answers).1.cachedTokenChars = [] ∧
      (s.processUserPrompt m prompt nPredict answers).1.assistantSs = [] := by
  have hreset : (s.withPrompt m .user prompt).cachedTokenChars = [] ∧
      (s.withPrompt m .user prompt).assistantSs = [] := by
    unfold withPrompt formatPrompt
    split <;> exact ⟨rfl, rfl⟩
  have hback := (decodeTokensFrom_stepsBack answers s.currentPosition
    ((s.promptTokens m .user prompt).take maxBatchSize) 0 (s.withPrompt m .user prompt)).rest
  obtain ⟨-, -, hcached, hassistant⟩ := hback
  rcases s.processUserPrompt_cases (m := m) prompt nPredict answers with ⟨-, hres⟩ | ⟨-, hres⟩
  · rw [hres]
    exact ⟨hcached.trans hreset.1, hassistant.trans hreset.2⟩
  · rw [hres]
    exact ⟨hcached.trans hreset.1, hassistant.trans hreset.2⟩

/--
**The text of a reply.** Put together, the texts are the pieces of the generated tokens up to the
last place where all of them together are valid, and that is the message that an end token records.
After a byte that is wrong where it stands nothing is handed out for the rest of the reply, however
many tokens are generated.
-/
theorem reply_text (hsampled : NoNul m sampled) {texts : List (List UInt8)}
    (htexts : (generate m (s.processUserPrompt m prompt nPredict answers).1 sampled).1 = texts) :
    (∃ j ≤ texts.length,
        isValidUtf8 (pieces m (sampled.take j)).flatten = true ∧
        (∀ k, j < k → k ≤ texts.length →
          isValidUtf8 (pieces m (sampled.take k)).flatten = false) ∧
        texts.flatten = (pieces m (sampled.take j)).flatten) ∧
      (∀ i ≤ texts.length, isUtf8Prefix (pieces m (sampled.take i)).flatten = false →
        (texts.drop i).flatten = []) ∧
      ((generate m (s.processUserPrompt m prompt nPredict answers).1 sampled).2.chatMsgs =
          (s.processUserPrompt m prompt nPredict answers).1.chatMsgs ∨
        (generate m (s.processUserPrompt m prompt nPredict answers).1 sampled).2.chatMsgs =
          (s.processUserPrompt m prompt nPredict answers).1.chatMsgs ++
            [⟨.assistant, texts.flatten⟩]) := by
  obtain ⟨hcached, hassistant⟩ := processUserPrompt_short m prompt nPredict answers s
  obtain ⟨hout, hmsgs⟩ := generate_text (m := m)
    (s := (s.processUserPrompt m prompt nPredict answers).1) hsampled (by rw [hcached]; simp)
  rw [htexts, hcached] at hout
  rw [htexts, hassistant, List.nil_append] at hmsgs
  have hnoNul := noNul_pieces hsampled texts.length
  have hlen : (pieces m (sampled.take texts.length)).length = texts.length := by
    conv_rhs => rw [hout, length_handedOut]
  -- taking pieces first or tokens first is the same
  have htake : ∀ i ≤ texts.length, (pieces m (sampled.take texts.length)).take i =
      pieces m (sampled.take i) := by
    intro i hi
    unfold pieces
    rw [← List.map_take, List.take_take, Nat.min_eq_left hi]
  refine ⟨?_, ?_, hmsgs⟩
  · obtain ⟨j, hj, hvalid, hlast, hflat, -⟩ := handedOut_spec isValidUtf8_resumes hnoNul
    rw [hlen] at hj hlast
    rw [htake j hj] at hvalid hflat
    refine ⟨j, hj, hvalid, fun k hjk hk => ?_, ?_⟩
    · have := hlast k hjk hk
      rw [htake k hk] at this
      exact this
    · rw [← hflat, ← hout]
  · intro i hi hwrong
    have hsplit : pieces m (sampled.take texts.length) =
        pieces m (sampled.take i) ++ (pieces m (sampled.take texts.length)).drop i := by
      rw [← htake i hi, List.take_append_drop]
    have hstuck : ∀ b, (∀ x ∈ b, x ≠ 0x00) →
        isValidUtf8 ((pieces m (sampled.take i)).flatten ++ b) = false := by
      intro b hb
      rw [Bool.eq_false_iff]
      intro hvalid
      have := (exists_valid_append_iff (noNul_pieces hsampled i)).mp ⟨b, hb, hvalid⟩
      rw [hwrong] at this
      exact Bool.false_ne_true this
    have hsame := handedOut_of_stuck isValidUtf8_resumes (by rw [← hsplit]; exact hnoNul) hstuck
    rw [← hsplit, ← hout, ← htake i hi, ← take_handedOut, ← hout] at hsame
    conv_lhs at hsame => rw [← List.take_append_drop i texts, List.flatten_append]
    exact List.append_right_eq_self.mp hsame

/-- A reply of a letter and the first byte of a longer sequence. -/
theorem reply_text_cut :
    ∃ texts : List (List UInt8),
      (generate byteModel ((Session.prepared : Session UInt8).processUserPrompt byteModel
        [0x68, 0x69] 16 fun _ => true).1 [(0x61, true), (0xE3, true)]).1 = texts ∧
      ∃ j ≤ texts.length,
        isValidUtf8 (pieces byteModel ([(0x61, true), (0xE3, true)].take j)).flatten = true ∧
        (∀ k, j < k → k ≤ texts.length →
          isValidUtf8 (pieces byteModel ([(0x61, true), (0xE3, true)].take k)).flatten = false) ∧
        texts.flatten = (pieces byteModel ([(0x61, true), (0xE3, true)].take j)).flatten := by
  have hsampled : NoNul byteModel [(0x61, true), (0xE3, true)] := by
    simp [NoNul, byteModel]
  exact ⟨_, rfl, (reply_text hsampled rfl).1⟩

end Kaede.AiChat
