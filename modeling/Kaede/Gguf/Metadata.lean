import Kaede.Decimal

/-!
# `GgufMetadata`

What the app learns about a model file from its metadata.
-/

namespace Kaede.Gguf

inductive GgufVersion where
  | legacyV1
  | extendedV2
  | validatedV3
deriving DecidableEq, Repr

namespace GgufVersion

def code : GgufVersion → Nat
  | legacyV1 => 1
  | extendedV2 => 2
  | validatedV3 => 3

def entries : List GgufVersion := [legacyV1, extendedV2, validatedV3]

/-- `none` is the `IOException`. -/
def fromCode (code : Int) : Option GgufVersion := entries.find? fun v => (v.code : Int) == code

end GgufVersion

structure BasicInfo where
  uuid : Option Text
  name : Option Text
  nameLabel : Option Text
  sizeLabel : Option Text
deriving DecidableEq, Repr

structure AuthorInfo where
  organization : Option Text
  author : Option Text
  doi : Option Text
  url : Option Text
  repoUrl : Option Text
  license : Option Text
  licenseLink : Option Text
deriving DecidableEq, Repr

structure AdditionalInfo where
  type : Option Text
  description : Option Text
  tags : Option (List Text)
  languages : Option (List Text)
deriving DecidableEq, Repr

structure ArchitectureInfo where
  architecture : Text
  fileType : Option Int
  vocabSize : Option Int
  finetune : Option Text
  quantizationVersion : Option Int
deriving DecidableEq, Repr

structure BaseModelInfo where
  name : Option Text
  author : Option Text
  version : Option Text
  organization : Option Text
  url : Option Text
  doi : Option Text
  uuid : Option Text
  repoUrl : Option Text
deriving DecidableEq, Repr

structure TokenizerInfo where
  model : Option Text
  bosTokenId : Option Int
  eosTokenId : Option Int
  unknownTokenId : Option Int
  paddingTokenId : Option Int
  addBosToken : Option Bool
  addEosToken : Option Bool
  chatTemplate : Option Text
deriving DecidableEq, Repr

structure DimensionsInfo where
  contextLength : Option Int
  embeddingSize : Option Int
  blockCount : Option Int
  feedForwardSize : Option Int
deriving DecidableEq, Repr

/-- A `Float` is given by its bits. -/
structure AttentionInfo where
  headCount : Option Int
  headCountKv : Option Int
  keyLength : Option Int
  valueLength : Option Int
  layerNormEpsilon : Option UInt32
  layerNormRmsEpsilon : Option UInt32
deriving DecidableEq, Repr

structure RopeInfo where
  frequencyBase : Option UInt32
  dimensionCount : Option Int
  scalingType : Option Text
  scalingFactor : Option UInt32
  attnFactor : Option UInt32
  originalContextLength : Option Int
  finetuned : Option Bool
deriving DecidableEq, Repr

structure ExpertsInfo where
  count : Option Int
  usedCount : Option Int
deriving DecidableEq, Repr

structure GgufMetadata where
  version : GgufVersion
  tensorCount : Int
  kvCount : Int
  basic : BasicInfo
  author : Option AuthorInfo
  additional : Option AdditionalInfo
  architecture : Option ArchitectureInfo
  baseModels : Option (List BaseModelInfo)
  tokenizer : Option TokenizerInfo
  dimensions : Option DimensionsInfo
  attention : Option AttentionInfo
  rope : Option RopeInfo
  experts : Option ExpertsInfo
deriving DecidableEq, Repr

end Kaede.Gguf
