import Kaede.Gguf.Reader

/-!
# `buildStructured`

Sorts the entries of the metadata map into `GgufMetadata`, and reads a file as a whole.
-/

namespace Kaede.Gguf

open Infra Infra.Reader

/-! ## Lookups -/

namespace MetaMap

variable (m : MetaMap) (key : Text)

/-- `m[key]`. -/
def get : Option MetadataValue := m.lookup key

def str : Option Text :=
  match m.get key with
  | some (.stringVal value) => some value
  | _ => none

def bool : Option Bool :=
  match m.get key with
  | some (.bool value) => some value
  | _ => none

/-- An unsigned number that is returned as a signed one. -/
def u32 : Option Int :=
  match m.get key with
  | some (.uint32 value) => some (toInt value.toNat)
  | _ => none

def f32 : Option UInt32 :=
  match m.get key with
  | some (.float32 bits) => some bits
  | _ => none

/-- The elements that are not strings are left out. -/
def strList : Option (List Text) :=
  match m.get key with
  | some (.arrayVal _ elements) => some (elements.filterMap fun
    | .stringVal value => some value
    | _ => none)
  | _ => none

end MetaMap

/-- `this?.takeIf { !it.check() }`. -/
def takeUnless {α : Type} (a : α) (check : α → Prop) [DecidablePred check] : Option α :=
  if check a then none else some a

def archLlama : String := "llama"

/-! ## Sections -/

/-- The key of a property of the model's architecture. -/
def archKey (arch : Text) (property : String) : Text := arch ++ utf16 property

def baseModelKey (i : Nat) (property : String) : Text :=
  utf16 "general.base_model." ++ intText i ++ utf16 "." ++ utf16 property

section

variable (m : MetaMap)

def architectureName : Text := (m.str (utf16 "general.architecture")).getD (utf16 archLlama)

def basicInfo : BasicInfo where
  uuid := m.str (utf16 "general.uuid")
  name := m.str (utf16 "general.basename")
  nameLabel := m.str (utf16 "general.name")
  sizeLabel := m.str (utf16 "general.size_label")

def authorInfo : Option AuthorInfo :=
  takeUnless
    { organization := m.str (utf16 "general.organization")
      author := m.str (utf16 "general.author")
      doi := m.str (utf16 "general.doi")
      url := m.str (utf16 "general.url")
      repoUrl := m.str (utf16 "general.repo_url")
      license := m.str (utf16 "general.license")
      licenseLink := m.str (utf16 "general.license.link") }
    fun i => i.organization = none ∧ i.author = none ∧ i.doi = none ∧ i.url = none ∧
      i.repoUrl = none ∧ i.license = none ∧ i.licenseLink = none

def additionalInfo : Option AdditionalInfo :=
  takeUnless
    { type := m.str (utf16 "general.type")
      description := m.str (utf16 "general.description")
      tags := m.strList (utf16 "general.tags")
      languages := m.strList (utf16 "general.languages") }
    fun i => i.type = none ∧ i.description = none ∧ i.tags = none ∧ i.languages = none

/-- The name of the architecture alone does not make a section. -/
def architectureInfo (arch : Text) : Option ArchitectureInfo :=
  takeUnless
    { architecture := arch
      fileType := m.u32 (utf16 "general.file_type")
      vocabSize := m.u32 (archKey arch ".vocab_size")
      finetune := m.str (utf16 "general.finetune")
      quantizationVersion := m.u32 (utf16 "general.quantization_version") }
    fun i => i.fileType = none ∧ i.vocabSize = none ∧ i.finetune = none ∧
      i.quantizationVersion = none

def baseModelInfo (i : Nat) : BaseModelInfo where
  name := m.str (baseModelKey i "name")
  author := m.str (baseModelKey i "author")
  version := m.str (baseModelKey i "version")
  organization := m.str (baseModelKey i "organization")
  url := m.str (baseModelKey i "url")
  doi := m.str (baseModelKey i "doi")
  uuid := m.str (baseModelKey i "uuid")
  repoUrl := m.str (baseModelKey i "repo_url")

/-- As many as the file says there are. -/
def baseModelCount : Nat := ((m.u32 (utf16 "general.base_model.count")).getD 0).toNat

def baseModels : Option (List BaseModelInfo) :=
  takeUnless ((List.range (baseModelCount m)).map (baseModelInfo m)) fun models => models = []

def tokenizerInfo : Option TokenizerInfo :=
  takeUnless
    { model := m.str (utf16 "tokenizer.ggml.model")
      bosTokenId := m.u32 (utf16 "tokenizer.ggml.bos_token_id")
      eosTokenId := m.u32 (utf16 "tokenizer.ggml.eos_token_id")
      unknownTokenId := m.u32 (utf16 "tokenizer.ggml.unknown_token_id")
      paddingTokenId := m.u32 (utf16 "tokenizer.ggml.padding_token_id")
      addBosToken := m.bool (utf16 "tokenizer.ggml.add_bos_token")
      addEosToken := m.bool (utf16 "tokenizer.ggml.add_eos_token")
      chatTemplate := m.str (utf16 "tokenizer.chat_template") }
    fun i => i.model = none ∧ i.bosTokenId = none ∧ i.eosTokenId = none ∧
      i.unknownTokenId = none ∧ i.paddingTokenId = none ∧ i.addBosToken = none ∧
      i.addEosToken = none ∧ i.chatTemplate = none

def dimensionsInfo (arch : Text) : Option DimensionsInfo :=
  takeUnless
    { contextLength := m.u32 (archKey arch ".context_length")
      embeddingSize := m.u32 (archKey arch ".embedding_length")
      blockCount := m.u32 (archKey arch ".block_count")
      feedForwardSize := m.u32 (archKey arch ".feed_forward_length") }
    fun i => i.contextLength = none ∧ i.embeddingSize = none ∧ i.blockCount = none ∧
      i.feedForwardSize = none

def attentionInfo (arch : Text) : Option AttentionInfo :=
  takeUnless
    { headCount := m.u32 (archKey arch ".attention.head_count")
      headCountKv := m.u32 (archKey arch ".attention.head_count_kv")
      keyLength := m.u32 (archKey arch ".attention.key_length")
      valueLength := m.u32 (archKey arch ".attention.value_length")
      layerNormEpsilon := m.f32 (archKey arch ".attention.layer_norm_epsilon")
      layerNormRmsEpsilon := m.f32 (archKey arch ".attention.layer_norm_rms_epsilon") }
    fun i => i.headCount = none ∧ i.headCountKv = none ∧ i.keyLength = none ∧
      i.valueLength = none ∧ i.layerNormEpsilon = none ∧ i.layerNormRmsEpsilon = none

def ropeInfo (arch : Text) : Option RopeInfo :=
  takeUnless
    { frequencyBase := m.f32 (archKey arch ".rope.freq_base")
      dimensionCount := m.u32 (archKey arch ".rope.dimension_count")
      scalingType := m.str (archKey arch ".rope.scaling.type")
      scalingFactor := m.f32 (archKey arch ".rope.scaling.factor")
      attnFactor := m.f32 (archKey arch ".rope.scaling.attn_factor")
      originalContextLength := m.u32 (archKey arch ".rope.scaling.original_context_length")
      finetuned := m.bool (archKey arch ".rope.scaling.finetuned") }
    fun i => i.frequencyBase = none ∧ i.dimensionCount = none ∧ i.scalingType = none ∧
      i.scalingFactor = none ∧ i.attnFactor = none ∧ i.originalContextLength = none ∧
      i.finetuned = none

def expertsInfo (arch : Text) : Option ExpertsInfo :=
  takeUnless
    { count := m.u32 (archKey arch ".expert_count")
      usedCount := m.u32 (archKey arch ".expert_used_count") }
    fun i => i.count = none ∧ i.usedCount = none

def buildStructured (version : GgufVersion) (tensorCnt kvCnt : Int) : GgufMetadata :=
  let arch := architectureName m
  { version := version
    tensorCount := tensorCnt
    kvCount := kvCnt
    basic := basicInfo m
    author := authorInfo m
    additional := additionalInfo m
    architecture := architectureInfo m arch
    baseModels := baseModels m
    tokenizer := tokenizerInfo m
    dimensions := dimensionsInfo m arch
    attention := attentionInfo m arch
    rope := ropeInfo m arch
    experts := expertsInfo m arch }

end

/-! ## The file -/

/-- Of what `buildStructured` allocates, only the list of the base models can be large. -/
def readStructuredMetadata (cfg : Config) (room depth : Nat) : Read GgufMetadata := do
  let version ← ensureMagicAndVersion
  let tensorCount ← readLittleLong
  let kvCount ← readLittleLong
  let entries ← readMetaMap cfg room depth kvCount
  allocating room (baseModelCount entries)
    (pure (buildStructured entries version tensorCount kvCount))

end Kaede.Gguf
