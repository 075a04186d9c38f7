/-
Azsl.Grammar.Keyword — the word tables of the language.

Built-in types by category, storage flags, reserved words and the fixed values of sampler
states. Words are told apart by these tables only, never by how they are used.
-/

namespace Azsl

/-- Category of a built-in type. -/
inductive TypeCategory where
  | void
  | scalar
  | vector
  | matrix
  | buffer
  | byteAddressBuffer
  | patch
  | sampler
  | streamOutput
  | structuredBuffer
  | texture
  | msTexture
  | constantBuffer
  | otherViewResource
  | subobject
  | rtxBuiltIn
deriving DecidableEq, Repr

namespace Keyword

/-! ## Built-in types -/

/-- Scalar types, longer ones before those they start with. -/
def scalarTypes : List String :=
  ["min16float", "min10float", "min16uint", "min16int", "min12int", "double", "dword", "float",
   "bool", "half", "uint", "int"]

/-- The words of each category but the numeric ones. -/
def typeTables : List (List String × TypeCategory) :=
  [(["Buffer", "RWBuffer", "RasterizerOrderedBuffer"], .buffer),
   (["ByteAddressBuffer", "RWByteAddressBuffer", "RasterizerOrderedByteAddressBuffer"],
     .byteAddressBuffer),
   (["InputPatch", "OutputPatch"], .patch),
   (["sampler", "Sampler", "SamplerState", "SamplerComparisonState"], .sampler),
   (["PointStream", "LineStream", "TriangleStream"], .streamOutput),
   (["AppendStructuredBuffer", "ConsumeStructuredBuffer", "RWStructuredBuffer",
     "StructuredBuffer", "RasterizerOrderedStructuredBuffer"], .structuredBuffer),
   (["Texture1D", "Texture1DArray", "RasterizerOrderedTexture1D",
     "RasterizerOrderedTexture1DArray", "Texture2D", "Texture2DArray",
     "RasterizerOrderedTexture2D", "RasterizerOrderedTexture2DArray", "Texture3D",
     "RasterizerOrderedTexture3D", "TextureCube", "TextureCubeArray", "RWTexture1D",
     "RWTexture1DArray", "RWTexture2D", "RWTexture2DArray", "RWTexture3D", "SubpassInput",
     "SubpassInputMS"], .texture),
   (["Texture2DMS", "Texture2DMSArray"], .msTexture),
   (["ConstantBuffer", "constantBuffer"], .constantBuffer),
   (["RaytracingAccelerationStructure"], .otherViewResource),
   (["StateObjectConfig", "LocalRootSignature", "GlobalRootSignature",
     "SubobjectToExportsAssociation", "RaytracingShaderConfig", "RaytracingPipelineConfig",
     "RaytracingPipelineConfig1", "TriangleHitGroup", "ProceduralPrimitiveHitGroup"],
     .subobject),
   (["BuiltInTriangleIntersectionAttributes", "RayDesc"], .rtxBuiltIn)]

/-- A digit that can be the size of a vector. -/
def isDimension (c : Char) : Bool := '1' ≤ c && c ≤ '4'

/-- The category of a scalar type's name followed by a size: none, `3` or `3x4`. -/
def sizedCategory? : List Char → Option TypeCategory
  | [] => some .scalar
  | [rows] => if isDimension rows then some .vector else none
  | [rows, 'x', columns] => if isDimension rows && isDimension columns then some .matrix else none
  | _ => none

/-- The category of `float`, `float3`, `float3x4` and the like. -/
def numericCategory? (word : String) : Option TypeCategory :=
  match scalarTypes.find? (fun scalar => scalar.toList.isPrefixOf word.toList) with
  | none => none
  | some scalar => sizedCategory? (word.toList.drop scalar.length)

/-- The category of a built-in type. The word `matrix` is one only before a template argument
list, which takes a look at the next token. -/
def category? (word : String) : Option TypeCategory :=
  if word = "void" then some .void
  else if word = "vector" then some .vector
  else (numericCategory? word).or ((typeTables.find? (·.1.contains word)).map (·.2))

/-! ## Other words -/

/-- Words that qualify a type: modifiers, storage classes, interpolation, parameters and
geometry primitives. -/
def storageFlags : List String :=
  ["const", "row_major", "column_major", "extern", "inline", "rootconstant", "option", "precise",
   "shared", "groupshared", "static", "uniform", "volatile", "linear", "centroid",
   "nointerpolation", "noperspective", "sample", "in", "out", "inout", "point", "line",
   "triangle", "lineadj", "triangleadj"]

/-- Whether a word can be a storage flag. -/
def isStorageFlag (word : String) : Bool := storageFlags.contains word

/-- Words that never stand for a name, built-in types apart. -/
def reservedWords : List String :=
  ["if", "else", "for", "while", "do", "switch", "case", "default", "break", "continue",
   "discard", "return", "struct", "class", "interface", "enum", "typedef", "typealias",
   "typeof", "true", "false", "unsigned", "ShaderResourceGroup", "ShaderResourceGroupSemantic"]

/-- Whether a word never stands for a name. -/
def isReserved (word : String) : Bool :=
  reservedWords.contains word || (category? word).isSome

/-- Words that open a declaration at the start of a line. -/
def declarationKeywords : List String :=
  ["struct", "class", "interface", "enum", "ShaderResourceGroup", "ShaderResourceGroupSemantic",
   "partial", "typedef", "typealias"]

/-- Words that open the definition of a type. -/
def structuredKeywords : List String := ["struct", "class", "interface", "enum"]

/-- Statements addressed to the compiler. -/
def compilerExtensions : List String := ["__azslc_print_message", "__azslc_print_symbol"]

/-- How much of a symbol a compiler extension prints. -/
def printQualifiers : List String :=
  ["__azslc_prtsym_fully_qualified", "__azslc_prtsym_least_qualified",
   "__azslc_prtsym_constint_value"]

/-- Fields of a shader resource group semantic. -/
def srgSemanticFields : List String := ["FrequencyId", "ShaderVariantFallback"]

/-! ## Sampler states -/

/-- Values of the filter fields. -/
def filterModes : List String := ["Point", "Linear"]

/-- Values of the reduction field. -/
def reductionTypes : List String := ["Filter", "Comparison", "Minimum", "Maximum"]

/-- Values of the address fields. -/
def addressModes : List String := ["Wrap", "Mirror", "Clamp", "Border", "MirrorOnce"]

/-- Values of the comparison field. -/
def comparisonFunctions : List String :=
  ["Never", "Less", "Equal", "LessEqual", "Greater", "NotEqual", "GreaterEqual", "Always"]

/-- Values of the border field. -/
def borderColors : List String := ["OpaqueBlack", "TransparentBlack", "OpaqueWhite"]

end Keyword

end Azsl
