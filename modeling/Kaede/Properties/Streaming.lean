import Kaede.Ai.MlcLlm
import Kaede.Infra.Encoding
import Kaede.Properties.NativeFlags

/-!
# Which responses are streamed without splitting a character

Both streaming loops hand out one unit of the response at a time: a byte of its UTF-8 in the
native layer, a UTF-16 unit in `generate` and `generateFlow`.

* `streamedByNative_iff` — what the token loop hands out, in any interleaving without a cancel
* `streamedByEngine_iff` — what a loaded engine hands out
* `streamsWhole_iff` — both leave every character whole exactly when all of them are ASCII
-/

namespace Kaede

open Infra

/-! ## The encodings -/

def utf16Encoding : Encoding Char CodeUnit where
  encode := utf16Char
  encode_ne_nil c := by
    unfold utf16Char
    grind

/-- The three bytes of a unit from U+0800 on. -/
def threeBytes (u : CodeUnit) : MlcJni.Bytes :=
  [UInt8.ofNat (0xE0 + u.toNat / 0x1000), UInt8.ofNat (0x80 + u.toNat / 0x40 % 0x40),
    UInt8.ofNat (0x80 + u.toNat % 0x40)]

/-- One character of what `NewStringUTF` accepts: U+0000 takes two bytes, and a surrogate pair
three for each surrogate. -/
def modifiedUtf8Char (c : Char) : MlcJni.Bytes :=
  if c.toNat = 0 then [0xC0, 0x80]
  else if c.toNat < 0x10000 then String.utf8EncodeChar c
  else (utf16Char c).flatMap threeBytes

def modifiedUtf8 : Encoding Char UInt8 where
  encode := modifiedUtf8Char
  encode_ne_nil c := by
    have hutf8 : String.utf8EncodeChar c ≠ [] := String.utf8EncodeChar_ne_nil
    unfold modifiedUtf8Char utf16Char threeBytes
    grind

theorem utf16_eq (text : String) : utf16 text = utf16Encoding.encodeText text.toList := rfl

/-! ## Single units -/

theorem utf8EncodeChar_ascii {c : Char} (h : c.toNat < 0x80) :
    String.utf8EncodeChar c = [UInt8.ofNat c.toNat] :=
  if_pos (Nat.le_of_lt_succ h)

theorem not_ofNat_lt {n : Nat} (hle : 0x80 ≤ n) (hlt : n < 0x100) : ¬ UInt8.ofNat n < 0x80 := by
  simp [UInt8.lt_iff_toNat_lt]
  omega

/-- Outside ASCII a code has at least two bytes, and the first is outside ASCII. -/
theorem utf8EncodeChar_not_ascii {c : Char} (h : ¬ c.toNat < 0x80) :
    ∃ b b' rest, String.utf8EncodeChar c = b :: b' :: rest ∧ ¬ b < 0x80 := by
  have hnot : ¬ c.val.toNat ≤ 0x7F := fun hle => h (Nat.lt_succ_of_le hle)
  unfold String.utf8EncodeChar
  simp only [if_neg hnot]
  -- two, three and four bytes
  split
  · exact ⟨_, _, _, rfl, not_ofNat_lt (by omega) (by omega)⟩
  · split
    · exact ⟨_, _, _, rfl, not_ofNat_lt (by omega) (by omega)⟩
    · exact ⟨_, _, _, rfl, not_ofNat_lt (by omega) (by omega)⟩

theorem toNat_ofNat_of_lt {n : Nat} (h : n < 0x80) : (UInt8.ofNat n).toNat = n := by
  simp
  omega

theorem toNat_charOfNat {n : Nat} (h : n < 0x80) : (Char.ofNat n).toNat = n := by
  have hvalid : n.isValidChar := Or.inl (by omega)
  have hchar : Char.ofNat n = Char.ofNatAux n hvalid := dif_pos hvalid
  rw [hchar]
  rfl

theorem forall_utf8EncodeChar_ascii_iff {c : Char} :
    (∀ b ∈ String.utf8EncodeChar c, b ≠ 0 ∧ b < 0x80) ↔ c.toNat ≠ 0 ∧ c.toNat < 0x80 := by
  by_cases h : c.toNat < 0x80
  · have hvalue := toNat_ofNat_of_lt h
    rw [utf8EncodeChar_ascii h, List.forall_mem_singleton, ne_eq, ← UInt8.toNat_inj,
      UInt8.lt_iff_toNat_lt, hvalue]
    rfl
  · obtain ⟨b, b', rest, hcode, hb⟩ := utf8EncodeChar_not_ascii h
    refine iff_of_false (fun hall => ?_) (fun hc => h hc.2)
    rw [hcode] at hall
    exact hb (hall b (by simp)).2

/-- The bytes that `NewStringUTF` accepts on their own. -/
theorem modifiedUtf8_singleton_iff {b : UInt8} :
    (∃ c, modifiedUtf8.encode c = [b]) ↔ b ≠ 0 ∧ b < 0x80 := by
  constructor
  · rintro ⟨c, hc⟩
    have hcode : String.utf8EncodeChar c = [b] ∧ c.toNat ≠ 0 := by
      change modifiedUtf8Char c = [b] at hc
      unfold modifiedUtf8Char utf16Char threeBytes at hc
      grind
    by_cases h : c.toNat < 0x80
    · exact forall_utf8EncodeChar_ascii_iff.mpr ⟨hcode.2, h⟩ b (by rw [hcode.1]; simp)
    · obtain ⟨_, _, _, htwo, -⟩ := utf8EncodeChar_not_ascii h
      rw [hcode.1] at htwo
      cases htwo
  · rintro ⟨hne, hlt⟩
    have hsmall : b.toNat < 0x80 := hlt
    have hnonzero : b.toNat ≠ 0 := fun h => hne (UInt8.toNat_inj.mp h)
    have hvalue := toNat_charOfNat hsmall
    refine ⟨Char.ofNat b.toNat, ?_⟩
    change modifiedUtf8Char _ = _
    rw [modifiedUtf8Char, if_neg (by rwa [hvalue]), if_pos (by omega),
      utf8EncodeChar_ascii (by rwa [hvalue]), hvalue, UInt8.ofNat_toNat]

/-- A surrogate is the code of no character. -/
theorem utf16Char_ne_surrogate {c d : Char} (h : ¬ c.toNat < 0x10000) :
    utf16Char d ≠ [UInt16.ofNat (0xD800 + (c.toNat - 0x10000) / 0x400)] := by
  intro hd
  unfold utf16Char at hd
  split at hd
  · next hsmall =>
    have hunit := congrArg UInt16.toNat (List.singleton_inj.mp hd)
    have hgap : d.toNat < 0xD800 ∨ 0xDFFF < d.toNat := d.valid.imp_right And.left
    have hrange : c.toNat < 0x110000 := by
      rcases c.valid with hlow | hhigh
      · exact absurd (Nat.lt_trans hlow (by decide)) h
      · exact hhigh.2
    rw [UInt16.toNat_ofNat', UInt16.toNat_ofNat', Nat.mod_eq_of_lt (by omega),
      Nat.mod_eq_of_lt (by omega)] at hunit
    omega
  · simp at hd

theorem forall_utf16Char_whole_iff {c : Char} :
    (∀ u ∈ utf16Char c, ∃ d, utf16Encoding.encode d = [u]) ↔ c.toNat < 0x10000 := by
  by_cases h : c.toNat < 0x10000
  · refine iff_of_true (fun u hu => ⟨c, ?_⟩) h
    have hone : utf16Char c = [UInt16.ofNat c.toNat] := if_pos h
    rw [hone, List.mem_singleton] at hu
    rw [hu]
    exact hone
  · refine iff_of_false (fun hall => ?_) h
    obtain ⟨d, hd⟩ := hall (UInt16.ofNat (0xD800 + (c.toNat - 0x10000) / 0x400))
      (by simp [utf16Char, h])
    exact utf16Char_ne_surrogate h hd

/-! ## What the token loop hands out -/

namespace MlcJni

variable {i : Nat} {found : Bool} {chosen rest : Bytes} {tokens : List Bytes} {g g' : Globals}
  {call call' : GenerateCall} {s t u : Native} {e : Event}

/-- The call is about to stream the response that it has chosen, and no cancel is stored. -/
structure AtLoop (i : Nat) (chosen : Bytes) (s : Native) (call : GenerateCall) : Prop where
  isCall : s.calls[i]? = some (.generate call)
  atStart : call.point = .checking chosen
  undelivered : call.delivered = []
  isChosen : call.response = some chosen
  clear : s.globals.shouldCancel = false

/-- A call has streamed the response as these tokens, whatever the other calls did meanwhile,
except for a cancel. -/
def Streamed (chosen : Bytes) (tokens : List Bytes) : Prop :=
  ∃ (i : Nat) (s : Native) (call : GenerateCall) (later : List Event) (u : Native)
      (call' : GenerateCall),
    AtLoop i chosen s call ∧ machine.Along (SparesLoop i) s later ∧
      machine.run s later = some u ∧ u.calls[i]? = some (.generate call') ∧
      call'.point.loopEnded = true ∧ call'.delivered = tokens

theorem AtLoop.uncancelled (h : AtLoop i chosen s call) : Uncancelled s.globals call := by
  refine ⟨?_, fun _ => h.clear, ?_, ?_⟩
  · rw [h.atStart]
    rfl
  · rw [h.atStart]
    simp
  · simp [h.atStart, h.undelivered, h.isChosen, GeneratePoint.remaining]

/-- The call has chosen its response. -/
def GeneratePoint.hasChosen : GeneratePoint → Bool
  | .checking _ | .calling _ _ | .clearingGenerating | .unlocking | .returned => true
  | _ => false

theorem response_of_transition (hchosen : call.point.hasChosen = true)
    (h : CallTransition i g (.generate call) g' (.generate call')) :
    call'.point.hasChosen = true ∧ call'.response = call.response := by
  cases h <;> simp_all [GeneratePoint.hasChosen]

/-- A call keeps the response that it has chosen. -/
def KeepsResponse (i : Nat) (chosen : Bytes) (s : Native) : Prop :=
  ∃ call, s.calls[i]? = some (.generate call) ∧ call.point.hasChosen = true ∧
    call.response = some chosen

theorem keepsResponse_step (h : KeepsResponse i chosen s) (hstep : step s e = some t) :
    KeepsResponse i chosen t := by
  obtain ⟨call, hcall, hchosen, hresponse⟩ := h
  rcases follow_call hcall hstep with ⟨call', htransition, hcall'⟩ | ⟨-, hsame⟩
  · obtain ⟨hchosen', hkept⟩ := response_of_transition hchosen htransition
    exact ⟨call', hcall', hchosen', hkept.trans hresponse⟩
  · exact ⟨call, hsame, hchosen, hresponse⟩

/-! ## The loop ends -/

theorem step_of_generateStep (hcall : s.calls[i]? = some (.generate call))
    (h : generateStep i found s.globals call = some (g, call')) :
    ∃ t, machine.step s (.advance i found) = some t ∧ t.globals = g ∧
      t.calls[i]? = some (.generate call') := by
  have hlt := (List.getElem?_eq_some_iff.mp hcall).1
  refine ⟨{ globals := g, calls := s.calls.set i (.generate call') }, ?_, rfl, ?_⟩
  · simp [machine, step, hcall, callStep, h]
  · exact List.getElem?_set_self hlt

/-- Only the call itself takes steps. -/
def OnlySelf (i : Nat) (later : List Event) : Prop := ∀ e ∈ later, ∃ found, e = .advance i found

/-- One character is checked and handed out in two steps. -/
theorem run_one_token {c : UInt8} (hcall : s.calls[i]? = some (.generate call))
    (hpoint : call.point = .checking (c :: rest)) (hclear : s.globals.shouldCancel = false) :
    ∃ t, machine.run s [.advance i true, .advance i true] = some t ∧
      t.globals.shouldCancel = false ∧
      ∃ call', t.calls[i]? = some (.generate call') ∧ call'.point = .checking rest := by
  have hcheck : generateStep i true s.globals call =
      some (s.globals, { call with point := .calling c rest }) := by
    simp [generateStep, hpoint, hclear]
  obtain ⟨t, hstep, hglobals, hcalling⟩ := step_of_generateStep hcall hcheck
  have hcallback : generateStep i true t.globals { call with point := .calling c rest } =
      some (t.globals,
        { call with point := .checking rest, delivered := call.delivered ++ [chunk c] }) := rfl
  obtain ⟨u, hstep', hglobals', hcall'⟩ := step_of_generateStep hcalling hcallback
  refine ⟨u, ?_, ?_, _, hcall', rfl⟩
  · rw [machine.run_cons_of_step hstep, machine.run_cons_of_step hstep', machine.run_nil]
  · rw [hglobals', hglobals, hclear]

/-- Left alone, the loop ends. -/
theorem run_loop (hcall : s.calls[i]? = some (.generate call))
    (hpoint : call.point = .checking rest) (hclear : s.globals.shouldCancel = false) :
    ∃ later u call', OnlySelf i later ∧ machine.run s later = some u ∧
      u.calls[i]? = some (.generate call') ∧ call'.point.loopEnded = true := by
  induction rest generalizing s call with
  | nil =>
    have hend : generateStep i true s.globals call =
        some (s.globals, { call with point := .clearingGenerating }) := by
      simp [generateStep, hpoint]
    obtain ⟨t, hstep, -, hcall'⟩ := step_of_generateStep hcall hend
    refine ⟨[.advance i true], t, _, by simp [OnlySelf], ?_, hcall', rfl⟩
    rw [machine.run_cons_of_step hstep, machine.run_nil]
  | cons c rest ih =>
    obtain ⟨t, hrun, hclear', call', hcall', hpoint'⟩ := run_one_token hcall hpoint hclear
    obtain ⟨later, u, call'', hself, hrest, hcall'', hended⟩ := ih hcall' hpoint' hclear'
    refine ⟨[.advance i true, .advance i true] ++ later, u, call'', ?_, ?_, hcall'', hended⟩
    · simpa [OnlySelf] using hself
    · rw [machine.run_append, hrun, Option.bind_some, hrest]

/-- A step of the call itself is no cancel. -/
theorem OnlySelf.along {later : List Event} (h : OnlySelf i later) :
    machine.Along (SparesLoop i) s later := by
  rw [Machine.along_iff_prefix]
  rintro xs e ys t rfl -
  obtain ⟨found, rfl⟩ := h e (by simp)
  rintro ⟨j, found', hadvance, hcancel⟩ call hcall
  cases hadvance
  rw [hcall] at hcancel
  cases hcancel

theorem eq_of_streamed (h : Streamed chosen tokens) : tokens = chosen.map chunk := by
  obtain ⟨i, s, call, later, u, call', hloop, hspares, hrun, hcall', hended, rfl⟩ := h
  have hstart : KeepsResponse i chosen s :=
    ⟨call, hloop.isCall, by rw [hloop.atStart]; rfl, hloop.isChosen⟩
  -- the call may have been resumed and interrupted any number of times
  obtain ⟨last, hlast, -, hresponse⟩ :=
    machine.run_invariant (fun _ _ _ h hstep => keepsResponse_step h hstep) hstart hrun
  rw [hcall', Option.some.injEq, NativeCall.generate.injEq] at hlast
  rw [delivered_of_uncancelled hloop.isCall hloop.uncancelled hspares hrun hcall' hended, hlast,
    hresponse]
  rfl

theorem exists_streamed (chosen : Bytes) : ∃ tokens, Streamed chosen tokens := by
  let call : GenerateCall :=
    { prompt := [], point := .checking chosen, delivered := [], response := some chosen }
  let s : Native :=
    { globals :=
        { holder := some 0, isGenerating := true, shouldCancel := false, mlcReady := false },
      calls := [.generate call] }
  have hloop : AtLoop 0 chosen s call := ⟨rfl, rfl, rfl, rfl, rfl⟩
  obtain ⟨later, u, call', hself, hrun, hcall', hended⟩ :=
    run_loop hloop.isCall hloop.atStart hloop.clear
  exact ⟨call'.delivered, 0, s, call, later, u, call', hloop, hself.along, hrun, hcall', hended,
    rfl⟩

/-- **The token loop hands out a response byte by byte.** -/
theorem streamed_iff : Streamed chosen tokens ↔ tokens = chosen.map chunk := by
  constructor
  · exact eq_of_streamed
  · rintro rfl
    obtain ⟨tokens, h⟩ := exists_streamed chosen
    rwa [← eq_of_streamed h]

/-! ## The native site -/

/-- A null byte is lost. -/
theorem flatten_map_chunk (bytes : Bytes) : (bytes.map chunk).flatten = bytes.filter (· ≠ 0) := by
  induction bytes with
  | nil => rfl
  | cons b bytes ih => by_cases hb : b = 0 <;> simp [chunk, hb, ih]

theorem chunk_of_ne {b : UInt8} (h : b ≠ 0) : chunk b = [b] := if_neg h

theorem wholeChunks_map_chunk_iff {bytes : Bytes} :
    modifiedUtf8.WholeChunks bytes (bytes.map chunk) ↔ ∀ b ∈ bytes, b ≠ 0 ∧ b < 0x80 := by
  constructor
  · intro h b hb
    have hflatten := h.flatten
    rw [flatten_map_chunk, List.filter_eq_self] at hflatten
    have hne : b ≠ 0 := by simpa using hflatten b hb
    have hwhole := h.whole (chunk b) (List.mem_map_of_mem hb)
    rw [chunk_of_ne hne, Encoding.whole_singleton_iff] at hwhole
    exact modifiedUtf8_singleton_iff.mp hwhole
  · intro h
    constructor
    · rw [List.forall_mem_map]
      intro b hb
      rw [chunk_of_ne (h b hb).1, Encoding.whole_singleton_iff]
      exact modifiedUtf8_singleton_iff.mpr (h b hb)
    · rw [flatten_map_chunk, List.filter_eq_self]
      intro b hb
      simpa using (h b hb).1

/-- **The native site streams the ASCII texts without U+0000.** -/
theorem streamed_whole_iff {text : String} :
    (∀ tokens, Streamed (utf8 text) tokens → modifiedUtf8.WholeChunks (utf8 text) tokens) ↔
      ∀ c ∈ text.toList, c.toNat ≠ 0 ∧ c.toNat < 0x80 := by
  simp only [streamed_iff, forall_eq, wholeChunks_map_chunk_iff, utf8, List.forall_mem_flatMap,
    forall_utf8EncodeChar_ascii_iff]

end MlcJni

/-! ## The Kotlin site -/

namespace MlcLlm

variable {native : NativeLayer} {ambient : Ambient} {prompt : Text} {params : GenerationParams}
  {m m' : MlcLlm} {result : GenerationResult} {text : Text} {tokens : List Text}

/-- A loaded engine has handed out the text of its response as these tokens. -/
def Streamed (text : Text) (tokens : List Text) : Prop :=
  ∃ (native : NativeLayer) (ambient : Ambient) (prompt : Text) (params : GenerationParams)
      (m m' : MlcLlm) (result : GenerationResult),
    m.isModelLoaded = true ∧
      generateWithMLCOrStub native ambient prompt params m = (.ok result, m') ∧
      result.text = text ∧
      (generate native ambient prompt params m = (.ok (result, tokens), m') ∨
        generateFlow native ambient prompt params m = (.ok tokens, m'))

theorem generate_of_loaded (hm : m.isModelLoaded = true)
    (h : generateWithMLCOrStub native ambient prompt params m = (.ok result, m')) :
    generate native ambient prompt params m =
      (.ok (result, result.text.map fun char => [char]), m') := by
  rw [generate, Jvm.bind_of_ok (rfl : Jvm.get m = (.ok m, m)), if_pos hm]
  apply Jvm.tryCatch_of_ok
  rw [Jvm.bind_of_ok h]
  rfl

theorem generateFlow_of_loaded (hm : m.isModelLoaded = true)
    (h : generateWithMLCOrStub native ambient prompt params m = (.ok result, m')) :
    generateFlow native ambient prompt params m =
      (.ok (result.text.map fun char => [char]), m') := by
  rw [generateFlow, Jvm.bind_of_ok (rfl : Jvm.get m = (.ok m, m)), if_pos hm]
  apply Jvm.tryCatch_of_ok
  rw [Jvm.bind_of_ok h]
  rfl

/-- **A loaded engine hands out its response unit by unit.** -/
theorem eq_of_streamed (h : Streamed text tokens) : tokens = text.map fun char => [char] := by
  obtain ⟨native, ambient, prompt, params, m, m', result, hm, hresult, rfl, hgen | hflow⟩ := h
  · rw [generate_of_loaded hm hresult] at hgen
    cases hgen
    rfl
  · rw [generateFlow_of_loaded hm hresult] at hflow
    cases hflow
    rfl

/-- Every text but the empty one can be a response: the native layer may reply with it. -/
theorem exists_streamed (h : text ≠ []) : ∃ tokens, Streamed text tokens := by
  let native : NativeLayer :=
    { loadLibrary := .ok (), nativeInit := .ok false, nativeLoadModel := fun _ _ => .ok true,
      nativeGenerate := fun _ _ => { tokens := [text], outcome := .ok () } }
  let m : MlcLlm := { fields with isNativeLoaded := true, isModelLoaded := true }
  obtain ⟨result, m', hresult, htext⟩ :
      Jvm.Returns (generateWithMLCOrStub native { clock := fun _ => 0, pick := 0 } [] {}) m
        (fun result _ => result.text = text) := by
    simp [generateWithMLCOrStub, m, native, fields, TokenSink.onToken, h]
  exact ⟨_, native, _, _, _, m, m', result, rfl, hresult, htext,
    Or.inl (generate_of_loaded rfl hresult)⟩

/-- **The Kotlin site streams the texts without surrogate pairs.** -/
theorem streamed_whole_iff {text : String} :
    (∀ tokens, Streamed (utf16 text) tokens →
        utf16Encoding.WholeChunks (utf16 text) tokens) ↔
      ∀ c ∈ text.toList, c.toNat < 0x10000 := by
  have hunits : (∀ u ∈ utf16 text, utf16Encoding.Whole [u]) ↔
      ∀ c ∈ text.toList, c.toNat < 0x10000 := by
    rw [utf16_eq, Encoding.forall_whole_iff]
    exact forall₂_congr fun c _ => forall_utf16Char_whole_iff
  rw [← hunits]
  constructor
  · intro h u hu
    obtain ⟨tokens, htokens⟩ := exists_streamed (List.ne_nil_of_mem hu)
    have hwhole := (h tokens htokens).whole
    rw [eq_of_streamed htokens, List.forall_mem_map] at hwhole
    exact hwhole u hu
  · intro h tokens htokens
    rw [eq_of_streamed htokens]
    refine ⟨?_, ?_⟩
    · rw [List.forall_mem_map]
      exact h
    · simp [← List.flatMap_def]

end MlcLlm

/-! ## Both sites -/

/-- Both sites stream the response in whole chunks that make it up. -/
structure StreamsWhole (text : String) : Prop where
  native : ∀ tokens, MlcJni.Streamed (MlcJni.utf8 text) tokens →
    modifiedUtf8.WholeChunks (MlcJni.utf8 text) tokens
  kotlin : ∀ tokens, MlcLlm.Streamed (utf16 text) tokens →
    utf16Encoding.WholeChunks (utf16 text) tokens

/-- **Streaming leaves every character whole exactly in the ASCII texts without U+0000.** -/
theorem streamsWhole_iff (text : String) :
    StreamsWhole text ↔ ∀ c ∈ text.toList, c.toNat ≠ 0 ∧ c.toNat < 0x80 := by
  constructor
  · intro h
    exact MlcJni.streamed_whole_iff.mp h.native
  · intro h
    refine ⟨MlcJni.streamed_whole_iff.mpr h, MlcLlm.streamed_whole_iff.mpr ?_⟩
    intro c hc
    exact Nat.lt_trans (h c hc).2 (by decide)

/-- The stub's reply to a prompt of three bytes is not streamed in whole chunks. -/
theorem cute_not_streamsWhole :
    MlcJni.response false (MlcJni.utf8 "hey") = MlcJni.utf8 "Aww, you're so cute! 😊" ∧
      ¬ StreamsWhole "Aww, you're so cute! 😊" := by
  refine ⟨rfl, fun h => ?_⟩
  have hlast := MlcJni.streamed_whole_iff.mp h.native '😊' (by decide)
  exact absurd hlast.2 (by decide)

end Kaede
