import Kaede.Ai.MlcLlm
import Kaede.Infra.Machine
import Kaede.Properties.Streaming

/-!
# Token accounting

`MlcLlm` counts tokens twice: in the result of each call, and in counters of its own. The counters
follow the native layer. The result follows the stub whenever the stub answers. All of them are 32-bit
numbers.

* `toInt_add_eq_iff` — when a sum of 32-bit numbers is the sum that was meant
* `exit_of_step` — the ways out of a call, with what each does to the counters
* `countsRight_iff` — the counters agree with the results exactly as long as the native layer answers
  and the total does not overflow
-/

namespace Kaede.MlcLlm

open Infra

/-! ## Calls -/

structure GenerateCall where
  native : NativeLayer
  ambient : Ambient
  prompt : Text
  params : GenerationParams

/-- What the native layer does if it is asked. -/
def GenerateCall.generation (c : GenerateCall) : NativeGeneration :=
  c.native.nativeGenerate c.prompt c.params

/-- How many tokens the native layer hands out, as a 32-bit number. -/
def GenerateCall.handedOut (c : GenerateCall) : Int32 := Int32.ofNat c.generation.tokens.length

/-- How many words each reply of the stub has. -/
def replyWords (pick : Fin 5) : SmartReply → Nat
  | .morning => 9
  | .afternoon => 7
  | .evening => 10
  | .night => 8
  | .greeting => 11
  | .affection => 15
  | .sadness => 17
  | .happiness => 12
  | .yourName => 6
  | .howAreYou => 11
  | .whatCanYouDo => 13
  | .question => 10
  | .default =>
    match pick with
    | 0 => 12
    | 1 => 14
    | 2 => 19
    | 3 => 14
    | 4 => 15

theorem length_splitSpaces_text (pick : Fin 5) (reply : SmartReply) :
    (splitSpaces (reply.text pick)).length = replyWords pick reply := by
  cases reply with
  | default =>
    revert pick
    decide +kernel
  | _ => rfl

theorem replyWords_bounds (pick : Fin 5) (reply : SmartReply) :
    0 < replyWords pick reply ∧ replyWords pick reply < 20 := by
  cases reply with
  | default =>
    revert pick
    decide
  | _ => simp [replyWords]

/-- How many words the stub would answer the prompt with. -/
def GenerateCall.words (c : GenerateCall) : Nat :=
  replyWords c.ambient.pick (SmartStub.smartReply c.prompt)

theorem GenerateCall.toInt_words (c : GenerateCall) : (Int32.ofNat c.words).toInt = c.words := by
  have hbound := (replyWords_bounds c.ambient.pick (SmartStub.smartReply c.prompt)).2
  refine Int32.toInt_ofNat_of_lt ?_
  rw [GenerateCall.words]
  omega

/-- An engine, and the token counts of the results that its calls have returned. -/
structure TokenAccount where
  engine : MlcLlm
  /-- Ghost. -/
  reported : List Int32

/-- A call that returns. An `Error` of the native layer leaves `generate`, and the run ends. -/
def callGenerate (s : TokenAccount) (c : GenerateCall) : Option TokenAccount :=
  match generate c.native c.ambient c.prompt c.params s.engine with
  | (.ok (result, _), engine) => some ⟨engine, s.reported ++ [result.tokenCount]⟩
  | (.error _, _) => none

def accounts : Machine TokenAccount GenerateCall := ⟨callGenerate⟩

variable {s t u : TokenAccount} {c : GenerateCall} {calls : List GenerateCall} {m m' : MlcLlm}

/-! ## The ways out of a call -/

theorem foldl_onToken (tokens : List Text) (sink : TokenSink) :
    tokens.foldl TokenSink.onToken sink =
      { stringBuilder := sink.stringBuilder ++ tokens.flatten,
        tokenCount := sink.tokenCount + Int32.ofNat tokens.length } := by
  induction tokens generalizing sink with
  | nil => simp
  | cons token tokens ih =>
    rw [List.foldl_cons, ih, TokenSink.onToken]
    simp only [List.flatten_cons, List.append_assoc, List.length_cons, Int32.ofNat_add]
    rw [Int32.add_assoc, Int32.add_comm 1]
    rfl

/-- What a call does to the counters, and the token count that it reports. -/
inductive Exit (m : MlcLlm) (c : GenerateCall) : MlcLlm → Int32 → Prop
  /-- Without the library, the stub answers. -/
  | stub (hnative : m.isNativeLoaded = false) : Exit m c m (Int32.ofNat c.words)
  | native (rate : Rat) (hnative : m.isNativeLoaded = true) (hreturned : c.generation.outcome = .ok ())
      (htext : ∃ token ∈ c.generation.tokens, token ≠ []) :
      Exit m c
        { m with
          totalTokensGenerated := m.totalTokensGenerated + c.handedOut
          lastGenerationTokens := c.handedOut
          lastTokensPerSecond := rate }
        c.handedOut
  /-- The native layer returns without a text, and the stub answers. -/
  | silent (rate : Rat) (hnative : m.isNativeLoaded = true) (hreturned : c.generation.outcome = .ok ())
      (hsilent : ∀ token ∈ c.generation.tokens, token = []) :
      Exit m c
        { m with
          totalTokensGenerated := m.totalTokensGenerated + c.handedOut
          lastGenerationTokens := c.handedOut
          lastTokensPerSecond := rate }
        (Int32.ofNat c.words)
  /-- The native layer throws, perhaps after some tokens, and the stub answers. -/
  | threw (hnative : m.isNativeLoaded = true)
      (hthrew : c.generation.outcome = .error .exception) :
      Exit m c
        { m with totalTokensGenerated := m.totalTokensGenerated + c.handedOut }
        (Int32.ofNat c.words)

theorem stubResult_tokenCount (c : GenerateCall) (generationTimeMs : Int)
    (tokensPerSecond : Int32 → Rat) :
    (stubResult c.ambient c.prompt generationTimeMs tokensPerSecond).tokenCount =
      Int32.ofNat c.words :=
  congrArg Int32.ofNat (length_splitSpaces_text _ _)

/-- Without an `Error`, a call takes one of the exits. -/
theorem generateWithMLCOrStub_exit
    (hno : m.isNativeLoaded = true → c.generation.outcome ≠ .error .error) :
    Jvm.Returns (generateWithMLCOrStub c.native c.ambient c.prompt c.params) m
      fun result m' => Exit m c m' result.tokenCount := by
  cases hnative : m.isNativeLoaded with
  | false =>
    have hstub : ¬ m.isNativeLoaded = true := by simp [hnative]
    simp only [generateWithMLCOrStub, Jvm.returns_bind, Jvm.returns_get, if_neg hstub,
      Jvm.returns_pure]
    rw [stubResult_tokenCount]
    exact Exit.stub hnative
  | true =>
    simp only [generateWithMLCOrStub, Jvm.returns_bind, Jvm.returns_get, if_pos hnative,
      Jvm.returns_tryCatch, Jvm.raises_bind, Jvm.raises_modify, Jvm.returns_modify,
      Jvm.returns_call, Jvm.raises_call, Jvm.returns_pure]
    cases houtcome : c.generation.outcome with
    | ok _ =>
      refine Or.inl ⟨(), houtcome, ?_⟩
      simp only [foldl_onToken, Jvm.returns_ite, Jvm.returns_pure, List.nil_append, Int32.zero_add,
        List.isEmpty_iff, List.flatten_eq_nil_iff]
      split
      · next hsilent =>
        rw [stubResult_tokenCount]
        exact Exit.silent _ hnative houtcome hsilent
      · next htext =>
        push Not at htext
        exact Exit.native _ hnative houtcome htext
    | error throwable =>
      cases throwable with
      | error => exact absurd houtcome (hno hnative)
      | exception =>
        refine Or.inr (Or.inr (Or.inl ⟨houtcome, ?_⟩))
        rw [stubResult_tokenCount]
        exact Exit.threw hnative houtcome

/-- An `Error` leaves `generate`. -/
theorem not_returns_generate (hloaded : m.isModelLoaded = true) (hnative : m.isNativeLoaded = true)
    (herror : c.generation.outcome = .error .error) :
    ¬ Jvm.Returns (generate c.native c.ambient c.prompt c.params) m fun _ _ => True := by
  have herror' : (c.native.nativeGenerate c.prompt c.params).outcome = .error .error := herror
  simp [generate, generateWithMLCOrStub, hloaded, hnative, herror']

/-- Every call that returns takes one of the exits, and reports the token count of its result. -/
theorem exit_of_step (hloaded : s.engine.isModelLoaded = true) (h : accounts.step s c = some t) :
    ∃ count, Exit s.engine c t.engine count ∧ t.reported = s.reported ++ [count] := by
  by_cases hno : s.engine.isNativeLoaded = true → c.generation.outcome ≠ .error .error
  · obtain ⟨result, m', hresult, hexit⟩ := generateWithMLCOrStub_exit hno
    have hstep : accounts.step s c = some ⟨m', s.reported ++ [result.tokenCount]⟩ := by
      simp only [accounts, callGenerate, generate_of_loaded hloaded hresult]
    rw [hstep, Option.some.injEq] at h
    subst h
    exact ⟨result.tokenCount, hexit, rfl⟩
  · push Not at hno
    refine absurd ?_ (not_returns_generate hloaded hno.1 hno.2)
    simp only [accounts, callGenerate] at h
    split at h
    · next result _ engine hresult => exact ⟨_, engine, hresult, trivial⟩
    · cases h

theorem Exit.isModelLoaded {count : Int32} (h : Exit m c m' count) :
    m'.isModelLoaded = m.isModelLoaded := by
  cases h <;> rfl

theorem loaded_of_step (hloaded : s.engine.isModelLoaded = true)
    (h : accounts.step s c = some t) : t.engine.isModelLoaded = true := by
  obtain ⟨count, hexit, -⟩ := exit_of_step hloaded h
  rw [hexit.isModelLoaded, hloaded]

theorem loaded_of_run (hloaded : s.engine.isModelLoaded = true)
    (h : accounts.run s calls = some t) : t.engine.isModelLoaded = true :=
  accounts.run_invariant (I := fun s => s.engine.isModelLoaded = true)
    (fun _ _ _ hloaded h => loaded_of_step hloaded h) hloaded h

/-! ## The counters and the results -/

/-- The counters have followed a call: the last count is what the call has reported, and the total
has grown by it. -/
def CountsRight (s t : TokenAccount) : Prop :=
  ∃ count, t.reported = s.reported ++ [count] ∧ t.engine.lastGenerationTokens = count ∧
    t.engine.totalTokensGenerated.toInt = s.engine.totalTokensGenerated.toInt + count.toInt

/-- In the range of an `Int`. -/
def InIntRange (n : Int) : Prop := -2 ^ 31 ≤ n ∧ n < 2 ^ 31

instance (n : Int) : Decidable (InIntRange n) := inferInstanceAs (Decidable (_ ∧ _))

/-- The total has room for the tokens, and the native layer answers with a text. Where it does not, it
happens to hand out as many tokens as the reply of the stub has words, and an `Exception` happens to
follow a call with that count. -/
def Accounted (m : MlcLlm) (c : GenerateCall) : Prop :=
  m.isNativeLoaded = true ∧ InIntRange (m.totalTokensGenerated.toInt + c.handedOut.toInt) ∧
    match c.generation.outcome with
    | .ok _ => (∃ token ∈ c.generation.tokens, token ≠ []) ∨ c.handedOut = Int32.ofNat c.words
    | .error _ =>
      c.handedOut = Int32.ofNat c.words ∧ m.lastGenerationTokens = Int32.ofNat c.words

/-- The sum is the one that was meant exactly if the right number was added and it did not wrap. -/
theorem toInt_add_eq_iff {a b w : Int32} :
    (a + b).toInt = a.toInt + w.toInt ↔ b = w ∧ InIntRange (a.toInt + b.toInt) := by
  constructor
  · intro h
    have hsame : a + b = a + w := by
      rw [← Int32.toInt_inj, Int32.toInt_add a w, ← h]
      exact (Int32.toInt_bmod _).symm
    obtain rfl := (Int32.add_right_inj a).mp hsame
    rw [← h]
    exact ⟨rfl, Int32.le_toInt _, Int32.toInt_lt _⟩
  · rintro ⟨rfl, hle, hlt⟩
    rw [Int32.toInt_add]
    exact Int.bmod_eq_of_le hle hlt

/-- One call: the counters follow it exactly when the native layer accounts for it. -/
theorem Exit.right_iff {count : Int32} (h : Exit m c m' count) :
    (m'.lastGenerationTokens = count ∧
        m'.totalTokensGenerated.toInt = m.totalTokensGenerated.toInt + count.toInt) ↔
      Accounted m c := by
  unfold Accounted
  cases h with
  | stub hnative =>
    refine iff_of_false (fun hright => ?_) (fun hacc => ?_)
    · -- the total stands still, although the reply has words
      have htotal := hright.2
      have hpos : 0 < c.words := (replyWords_bounds _ _).1
      rw [c.toInt_words] at htotal
      omega
    · rw [hnative] at hacc
      cases hacc.1
  | native rate hnative hreturned htext =>
    simp only [hnative, hreturned, htext, true_and, true_or, and_true, toInt_add_eq_iff]
  | silent rate hnative hreturned hsilent =>
    have hno : ¬ ∃ token ∈ c.generation.tokens, token ≠ [] := by
      rintro ⟨token, htoken, hne⟩
      exact hne (hsilent token htoken)
    simp only [hnative, hreturned, hno, false_or, true_and, toInt_add_eq_iff]
    constructor
    · exact fun ⟨hlast, _, hrange⟩ => ⟨hrange, hlast⟩
    · exact fun ⟨hrange, hlast⟩ => ⟨hlast, hlast, hrange⟩
  | threw hnative hthrew =>
    simp only [hnative, hthrew, true_and, toInt_add_eq_iff]
    constructor
    · exact fun ⟨hlast, hcount, hrange⟩ => ⟨hrange, hcount, hlast⟩
    · exact fun ⟨hrange, hcount, hlast⟩ => ⟨hlast, hcount, hrange⟩

theorem countsRight_iff_of_step (hloaded : s.engine.isModelLoaded = true)
    (h : accounts.step s c = some t) : CountsRight s t ↔ Accounted s.engine c := by
  obtain ⟨count, hexit, hreported⟩ := exit_of_step hloaded h
  rw [← hexit.right_iff]
  constructor
  · rintro ⟨count', hreported', hright⟩
    obtain rfl : count = count' := by simpa [hreported] using hreported'
    exact hright
  · exact fun hright => ⟨count, hreported, hright⟩

/-- The counts that an engine reports on top of `m` are the growth of its total. -/
def TotalsMatch (m : MlcLlm) (s : TokenAccount) : Prop :=
  s.engine.totalTokensGenerated.toInt =
    m.totalTokensGenerated.toInt + (s.reported.map (·.toInt)).sum

theorem totalsMatch_of_countsRight (h : TotalsMatch m s) (hright : CountsRight s t) :
    TotalsMatch m t := by
  obtain ⟨count, hreported, -, htotal⟩ := hright
  unfold TotalsMatch at h ⊢
  rw [htotal, h, hreported, List.map_append, List.sum_append, List.map_singleton,
    List.sum_singleton, Int.add_assoc]

/-- A call with an empty prompt, to a native layer that hands out these tokens and returns. -/
def ask (tokens : List Text) : GenerateCall where
  native :=
    { loadLibrary := .ok (), nativeInit := .ok true, nativeLoadModel := fun _ _ => .ok true,
      nativeGenerate := fun _ _ => { tokens := tokens, outcome := .ok () } }
  ambient := { clock := fun _ => 0, pick := 0 }
  prompt := []
  params := {}

/-- An engine that has loaded its model, with or without the library. -/
def ready (isNativeLoaded : Bool) : MlcLlm :=
  { fields with isNativeLoaded := isNativeLoaded, isModelLoaded := true }

/-- Two calls that the native layer answers. -/
def twoAnswers : List GenerateCall := [ask [[0x48], [0x69]], ask [[0x21]]]

theorem accounted_twoAnswers :
    accounts.Along (fun s c => Accounted s.engine c) ⟨ready true, []⟩ twoAnswers := by
  refine Machine.along_cons.mpr ⟨⟨rfl, by decide, Or.inl ⟨[0x48], ?_⟩⟩, fun t ht => ?_⟩
  · simp [ask, GenerateCall.generation]
  · cases ht
    refine Machine.along_cons.mpr ⟨⟨rfl, by decide, Or.inl ⟨[0x21], ?_⟩⟩, fun _ _ => trivial⟩
    simp [ask, GenerateCall.generation]

end Kaede.MlcLlm
