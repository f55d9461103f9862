import Kaede.Properties.GgufFormat

/-!
# What the default skip list costs

* `readStructuredMetadata_default` — skipping the default keys costs the chat template of the
  tokenizer, and nothing else
-/

namespace Kaede.Gguf

open Infra Infra.Reader InputStream

/-! ## Skipping alone -/

/-- Without skipped keys. -/
def Config.keepKeys (cfg : Config) : Config := { cfg with skipKeys := [] }

theorem encodes_keepKeys (cfg : Config) {room depth : Nat} {t : MetadataType} {v : MetadataValue}
    {bytes : List UInt8} (h : Encodes cfg.keepKeys room depth t v bytes) :
    Encodes cfg room depth t v bytes := by
  induction depth generalizing t v bytes with
  | zero => exact h
  | succ depth ih =>
    cases h with
    | number ht hn => exact Encoded.number ht hn
    | bool b => exact Encoded.bool b
    | string h => exact Encoded.string h
    | array hn hcount hkept hroom h =>
      have heach := h.map (f := id) fun v u hv => ih hv
      rw [List.map_id] at heach
      exact Encoded.array hn hcount hkept hroom heach
    | summary hn hcount hlong h => exact Encoded.summary hn hcount hlong h

/-- The entries whose keys are not skipped. -/
def unskipped (cfg : Config) (entries : MetaMap) : MetaMap :=
  entries.filter fun entry => entry.1 ∉ cfg.skipKeys

theorem encodesPair_keepKeys (cfg : Config) {room depth : Nat} {pair : Option (Text × MetadataValue)}
    {bytes : List UInt8} (h : EncodesPair cfg.keepKeys room depth pair bytes) :
    EncodesPair cfg room depth (pair.filter fun entry => entry.1 ∉ cfg.skipKeys) bytes := by
  cases h with
  | skipped hkey => exact absurd hkey (by simp [Config.keepKeys])
  | @kept key t v _ _ _ hk h =>
    by_cases hkey : key ∈ cfg.skipKeys
    · rw [Option.filter_some_neg (by simp [hkey])]
      exact EncodesPair.skipped hkey hk (passes_of_encodes h)
    · rw [Option.filter_some_pos (by simp [hkey])]
      exact EncodesPair.kept hkey hk (encodes_keepKeys cfg h)

theorem reduceOption_map_filter {α : Type} (p : α → Bool) (pairs : List (Option α)) :
    (pairs.map (Option.filter p)).reduceOption = pairs.reduceOption.filter p := by
  unfold List.reduceOption
  induction pairs with
  | nil => rfl
  | cons pair pairs ih =>
    rw [List.map_cons]
    cases pair with
    | none => exact ih
    | some a =>
      by_cases ha : p a = true
      · rw [Option.filter_some_pos ha]
        show a :: _ = (a :: _).filter p
        rw [ih, List.filter_cons_of_pos ha]
      · rw [Option.filter_some_neg (by simpa using ha)]
        show _ = (a :: _).filter p
        rw [List.filter_cons_of_neg ha]
        exact ih

theorem readMetaMap_of_keepKeys (cfg : Config) (room depth : Nat) (kvCnt : Int) (bytes : List UInt8)
    (entries : MetaMap) (s : InputStream)
    (h : readMetaMap cfg.keepKeys room depth kvCnt (plain bytes) = .ok (entries, s)) :
    readMetaMap cfg room depth kvCnt (plain bytes) = .ok (unskipped cfg entries, s) := by
  obtain ⟨used, rest, hbytes, hs, pairs, rfl, hcount, heach⟩ :=
    (readMetaMap_recognises cfg.keepKeys room depth kvCnt _ _ _).mp h
  refine (readMetaMap_recognises cfg room depth kvCnt _ _ _).mpr ⟨used, rest, hbytes, hs,
    pairs.map (Option.filter fun entry => entry.1 ∉ cfg.skipKeys), ?_, ?_,
    heach.map fun pair u hpair => encodesPair_keepKeys cfg hpair⟩
  · rw [unskipped, List.filter_reverse, reduceOption_map_filter]
  · rw [List.length_map]
    exact hcount

/-! ## Lookups -/

section

variable {cfg : Config} {m : MetaMap} {key : Text}

theorem get_unskipped (h : key ∉ cfg.skipKeys) :
    MetaMap.get (unskipped cfg m) key = MetaMap.get m key := by
  rw [MetaMap.get, MetaMap.get, unskipped]
  induction m with
  | nil => rfl
  | cons entry m ih =>
    obtain ⟨k, v⟩ := entry
    by_cases hskip : k ∈ cfg.skipKeys
    · have hne : (key == k) = false := by
        rw [beq_eq_false_iff_ne]
        rintro rfl
        exact h hskip
      rw [List.filter_cons_of_neg (by simpa using hskip), ih, List.lookup_cons, hne]
    · rw [List.filter_cons_of_pos (by simpa using hskip), List.lookup_cons, List.lookup_cons, ih]

theorem get_unskipped_of_mem (h : key ∈ cfg.skipKeys) :
    MetaMap.get (unskipped cfg m) key = none := by
  rw [MetaMap.get, List.lookup_eq_none_iff]
  intro entry hentry
  have hskip := (List.mem_filter.mp hentry).2
  rw [decide_eq_true_iff] at hskip
  rw [bne_iff_ne]
  rintro rfl
  exact hskip h

theorem str_unskipped (h : key ∉ cfg.skipKeys) :
    MetaMap.str (unskipped cfg m) key = MetaMap.str m key := by
  rw [MetaMap.str, MetaMap.str, get_unskipped h]

theorem bool_unskipped (h : key ∉ cfg.skipKeys) :
    MetaMap.bool (unskipped cfg m) key = MetaMap.bool m key := by
  rw [MetaMap.bool, MetaMap.bool, get_unskipped h]

theorem u32_unskipped (h : key ∉ cfg.skipKeys) :
    MetaMap.u32 (unskipped cfg m) key = MetaMap.u32 m key := by
  rw [MetaMap.u32, MetaMap.u32, get_unskipped h]

theorem f32_unskipped (h : key ∉ cfg.skipKeys) :
    MetaMap.f32 (unskipped cfg m) key = MetaMap.f32 m key := by
  rw [MetaMap.f32, MetaMap.f32, get_unskipped h]

theorem strList_unskipped (h : key ∉ cfg.skipKeys) :
    MetaMap.strList (unskipped cfg m) key = MetaMap.strList m key := by
  rw [MetaMap.strList, MetaMap.strList, get_unskipped h]

end

/-! ## Sections -/

/-- The keys that a reader skips by default. -/
def skipsDefault (threshold : Int) : Config :=
  { defaultConfig with arraySummariseThreshold := threshold }

/-- No skipped key ends like a property of the architecture. -/
theorem archKey_not_skipped {arch : Text} {property : String} {threshold : Int}
    (h : ∀ key ∈ defaultConfig.skipKeys, ¬ utf16 property <:+ key) :
    archKey arch property ∉ (skipsDefault threshold).skipKeys :=
  fun hmem => h _ hmem (List.suffix_append ..)

/-- No skipped key is about the model in general. -/
theorem general_not_skipped {key : Text} {threshold : Int} (h : key.head? = some 0x67) :
    key ∉ (skipsDefault threshold).skipKeys := by
  have hhead : ∀ key ∈ defaultConfig.skipKeys, key.head? ≠ some 0x67 := by decide
  exact fun hmem => hhead key hmem h

section

variable {threshold : Int} {m : MetaMap}

theorem architectureName_unskipped :
    architectureName (unskipped (skipsDefault threshold) m) = architectureName m := by
  rw [architectureName, architectureName, str_unskipped (general_not_skipped rfl)]

theorem basicInfo_unskipped : basicInfo (unskipped (skipsDefault threshold) m) = basicInfo m := by
  simp (disch := exact general_not_skipped rfl) only [basicInfo, str_unskipped]

theorem authorInfo_unskipped :
    authorInfo (unskipped (skipsDefault threshold) m) = authorInfo m := by
  simp (disch := exact general_not_skipped rfl) only [authorInfo, str_unskipped]

theorem additionalInfo_unskipped :
    additionalInfo (unskipped (skipsDefault threshold) m) = additionalInfo m := by
  simp (disch := exact general_not_skipped rfl) only [additionalInfo, str_unskipped,
    strList_unskipped]

theorem architectureInfo_unskipped {arch : Text} :
    architectureInfo (unskipped (skipsDefault threshold) m) arch = architectureInfo m arch := by
  have hsize : MetaMap.u32 (unskipped (skipsDefault threshold) m) (archKey arch ".vocab_size") =
      MetaMap.u32 m (archKey arch ".vocab_size") :=
    u32_unskipped (archKey_not_skipped (by decide))
  simp (disch := exact general_not_skipped rfl) only [architectureInfo, hsize, str_unskipped,
    u32_unskipped]

theorem baseModelCount_unskipped :
    baseModelCount (unskipped (skipsDefault threshold) m) = baseModelCount m := by
  rw [baseModelCount, baseModelCount, u32_unskipped (general_not_skipped rfl)]

theorem baseModels_unskipped :
    baseModels (unskipped (skipsDefault threshold) m) = baseModels m := by
  have hmodel : baseModelInfo (unskipped (skipsDefault threshold) m) = baseModelInfo m := by
    funext i
    simp (disch := exact general_not_skipped rfl) only [baseModelInfo, str_unskipped]
  rw [baseModels, baseModels, hmodel, baseModelCount_unskipped]

theorem dimensionsInfo_unskipped {arch : Text} :
    dimensionsInfo (unskipped (skipsDefault threshold) m) arch = dimensionsInfo m arch := by
  simp (disch := exact archKey_not_skipped (by decide)) only [dimensionsInfo, u32_unskipped]

theorem attentionInfo_unskipped {arch : Text} :
    attentionInfo (unskipped (skipsDefault threshold) m) arch = attentionInfo m arch := by
  simp (disch := exact archKey_not_skipped (by decide)) only [attentionInfo, u32_unskipped,
    f32_unskipped]

theorem ropeInfo_unskipped {arch : Text} :
    ropeInfo (unskipped (skipsDefault threshold) m) arch = ropeInfo m arch := by
  simp (disch := exact archKey_not_skipped (by decide)) only [ropeInfo, u32_unskipped,
    f32_unskipped, str_unskipped, bool_unskipped]

theorem expertsInfo_unskipped {arch : Text} :
    expertsInfo (unskipped (skipsDefault threshold) m) arch = expertsInfo m arch := by
  simp (disch := exact archKey_not_skipped (by decide)) only [expertsInfo, u32_unskipped]

end

/-- The section on the tokenizer without its chat template, if anything else is in it. -/
def dropChatTemplate (i : TokenizerInfo) : Option TokenizerInfo :=
  takeUnless { i with chatTemplate := none } fun i =>
    i.model = none ∧ i.bosTokenId = none ∧ i.eosTokenId = none ∧ i.unknownTokenId = none ∧
      i.paddingTokenId = none ∧ i.addBosToken = none ∧ i.addEosToken = none

theorem takeUnless_dropChatTemplate (i : TokenizerInfo) :
    (takeUnless i fun i => i.model = none ∧ i.bosTokenId = none ∧ i.eosTokenId = none ∧
        i.unknownTokenId = none ∧ i.paddingTokenId = none ∧ i.addBosToken = none ∧
        i.addEosToken = none ∧ i.chatTemplate = none).bind dropChatTemplate =
      dropChatTemplate i := by
  rw [takeUnless]
  split
  · next hempty =>
    rw [dropChatTemplate, takeUnless, if_pos]
    · rfl
    · simp [hempty]
  · rfl

theorem tokenizerInfo_unskipped {threshold : Int} {m : MetaMap} :
    tokenizerInfo (unskipped (skipsDefault threshold) m) =
      (tokenizerInfo m).bind dropChatTemplate := by
  have hvisible : ∀ key ∈ [utf16 "tokenizer.ggml.model", utf16 "tokenizer.ggml.bos_token_id",
      utf16 "tokenizer.ggml.eos_token_id", utf16 "tokenizer.ggml.unknown_token_id",
      utf16 "tokenizer.ggml.padding_token_id", utf16 "tokenizer.ggml.add_bos_token",
      utf16 "tokenizer.ggml.add_eos_token"], key ∉ (skipsDefault threshold).skipKeys := by
    show ∀ key ∈ _, key ∉ defaultConfig.skipKeys
    decide
  have htemplate : MetaMap.str (unskipped (skipsDefault threshold) m)
      (utf16 "tokenizer.chat_template") = none := by
    rw [MetaMap.str, get_unskipped_of_mem (List.mem_cons_self ..)]
  rw [tokenizerInfo, tokenizerInfo, takeUnless_dropChatTemplate, dropChatTemplate, htemplate]
  simp only [List.forall_mem_cons] at hvisible
  obtain ⟨h1, h2, h3, h4, h5, h6, h7, -⟩ := hvisible
  rw [str_unskipped h1, u32_unskipped h2, u32_unskipped h3, u32_unskipped h4, u32_unskipped h5,
    bool_unskipped h6, bool_unskipped h7]
  simp only [takeUnless, and_true]

theorem buildStructured_unskipped (threshold : Int) (m : MetaMap) (version : GgufVersion)
    (tensorCnt kvCnt : Int) :
    buildStructured (unskipped (skipsDefault threshold) m) version tensorCnt kvCnt =
      { buildStructured m version tensorCnt kvCnt with
        tokenizer := (buildStructured m version tensorCnt kvCnt).tokenizer.bind
          dropChatTemplate } := by
  simp only [buildStructured, architectureName_unskipped, basicInfo_unskipped, authorInfo_unskipped,
    additionalInfo_unskipped, architectureInfo_unskipped, baseModels_unskipped,
    tokenizerInfo_unskipped, dimensionsInfo_unskipped, attentionInfo_unskipped, ropeInfo_unskipped,
    expertsInfo_unskipped]

/-- **What the default skip list costs.** A file that can be read without it is read with it, to the
same place and with the same metadata, but for the chat template. -/
theorem readStructuredMetadata_default (threshold : Int) (room depth : Nat) (bytes : List UInt8)
    (m : GgufMetadata) (s : InputStream)
    (h : readStructuredMetadata { skipKeys := [], arraySummariseThreshold := threshold } room depth
      (plain bytes) = .ok (m, s)) :
    readStructuredMetadata
        { skipKeys := defaultConfig.skipKeys, arraySummariseThreshold := threshold } room depth
        (plain bytes) =
      .ok ({ m with tokenizer := m.tokenizer.bind dropChatTemplate }, s) := by
  simp only [readStructuredMetadata, bind_eq_ok] at h ⊢
  obtain ⟨version, s1, hversion, tensorCount, s2, htensor, kvCount, s3, hkv, entries, s4, hmeta,
    hbuild⟩ := h
  obtain ⟨_, tail1, _, rfl, _⟩ := (ensureMagicAndVersion_recognises _ _ _).mp hversion
  obtain ⟨_, tail2, _, rfl, _⟩ := (readLittleLong_recognises _ _ _).mp htensor
  obtain ⟨_, tail3, _, rfl, _⟩ := (readLittleLong_recognises _ _ _).mp hkv
  refine ⟨version, _, hversion, tensorCount, _, htensor, kvCount, _, hkv, _, s4,
    readMetaMap_of_keepKeys (skipsDefault threshold) room depth kvCount _ _ _ hmeta, ?_⟩
  rw [baseModelCount_unskipped, buildStructured_unskipped]
  rw [allocating] at hbuild ⊢
  split at hbuild
  · cases hbuild
  · next hroom =>
    cases hbuild
    rw [if_neg hroom]
    rfl

/-- A file whose only entry is a chat template. -/
def templateFile : List UInt8 :=
  magic ++ leBytes 4 3 ++ leBytes 8 0 ++ leBytes 8 1 ++
    (leBytes 8 23 ++ encodeUtf8 "tokenizer.chat_template" ++ leBytes 4 8 ++
      (leBytes 8 1 ++ [0x78]))

theorem encodesFile_templateFile (threshold : Int) :
    EncodesFile { skipKeys := [], arraySummariseThreshold := threshold } 23 1
      (buildStructured [(utf16 "tokenizer.chat_template", .stringVal (decodeUtf8 [0x78]))]
        .validatedV3 (long 0) (long 1)) templateFile := by
  have hkey : EncodesText 23 (utf16 "tokenizer.chat_template")
      (leBytes 8 23 ++ encodeUtf8 "tokenizer.chat_template") := by
    have hlength : (encodeUtf8 "tokenizer.chat_template").length = 23 := by decide
    have htext : EncodesText 23 _ _ :=
      EncodesText.mk (encodeUtf8 "tokenizer.chat_template") (by omega) (by omega)
    rw [decodeUtf8_encodeUtf8, hlength] at htext
    exact htext
  have hvalue : Encodes { skipKeys := [], arraySummariseThreshold := threshold } 23 1 .string
      (.stringVal (decodeUtf8 [0x78])) (leBytes 8 1 ++ [0x78]) :=
    Encoded.string (EncodesText.mk _ (by decide) (by decide))
  have hpairs := Each.cons (EncodesPair.kept (by simp) hkey hvalue) Each.nil
  rw [List.append_nil] at hpairs
  refine EncodesFile.mk .validatedV3 (by decide) (by decide) ?_ (by decide) hpairs
  rw [long_of_lt (by decide)]
  unfold toInt
  decide

theorem readStructuredMetadata_default_templateFile :
    readStructuredMetadata defaultConfig 23 1 (plain templateFile) =
      .ok (buildStructured [] .validatedV3 (long 0) (long 1), plain []) := by
  have h := readStructuredMetadata_default 1000 23 1 templateFile _ (plain [])
    ((readStructuredMetadata_eq_ok_iff _ _ _ _ _ _).mpr
      ⟨templateFile, [], (List.append_nil _).symm, rfl, encodesFile_templateFile 1000⟩)
  have hdrop := buildStructured_unskipped 1000
    [(utf16 "tokenizer.chat_template", .stringVal (decodeUtf8 [0x78]))] .validatedV3 (long 0)
    (long 1)
  rw [← hdrop] at h
  exact h

end Kaede.Gguf
