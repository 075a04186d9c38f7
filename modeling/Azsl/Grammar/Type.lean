/-
Azsl.Grammar.Type — types and the storage flags before them.
-/
import Azsl.Grammar.Expression

namespace Azsl

namespace Production

/-- A type of the program's own: a definition in place, or a name. -/
def userDefinedType (grammar : Grammar) (depth : Nat) : Production :=
  node .userDefinedType <|
    ifAhead (Lookahead.isAny · Keyword.structuredKeywords) (grammar .structured depth) idExpression

/-- The type of a type or of an expression, and a name inside of it. -/
def typeofExpression (grammar : Grammar) (depth : Nat) : Production :=
  node .typeofExpression <|
    expect "typeof" >=>
    expect "(" >=>
    orElse (grammar .type depth >=> guard (Lookahead.isAt · 0 ")"))
      (expressionExt grammar depth) >=>
    expect ")" >=>
    whenAt "::" (bump >=> idExpression)

/-- A word with a type as its template argument. -/
def templatedType (grammar : Grammar) (depth : Nat) (kind : NodeKind) : Production :=
  node kind (bump >=> templateArguments (grammar .type depth))

/-- A built-in type of a known category. -/
def typeOfCategory (grammar : Grammar) (depth : Nat) : TypeCategory → Production
  | .void => bump
  | .scalar => scalarType
  | .vector =>
    ifAhead (Lookahead.isAt · 1 "<")
      (node .genericVectorType <|
        bump >=> templateArguments (scalarType >=> expect "," >=> integerLiteral))
      (tokenNode .vectorType)
  | .matrix => tokenNode .matrixType
  | .buffer =>
    node .bufferPredefinedType (tokenNode .bufferType >=> templateArguments numericType)
  | .byteAddressBuffer => tokenNode .byteAddressBufferTypes
  | .patch =>
    node .patchPredefinedType <|
      bump >=>
      templateArguments (userDefinedType grammar depth >=> expect "," >=> integerLiteral)
  | .sampler => tokenNode .samplerStatePredefinedType
  | .streamOutput => templatedType grammar depth .streamOutputPredefinedType
  | .structuredBuffer => templatedType grammar depth .structuredBufferPredefinedType
  | .texture =>
    ifAhead (Lookahead.isAt · 1 "<")
      (node .genericTexturePredefinedType <|
        tokenNode .texturePredefinedType >=> templateArguments scalarOrVectorType)
      (tokenNode .texturePredefinedType)
  | .msTexture =>
    node .msTexturePredefinedType <|
      bump >=> templateArguments (scalarOrVectorType >=> whenAt "," (bump >=> integerLiteral))
  | .constantBuffer => templatedType grammar depth .constantBufferTemplated
  | .otherViewResource => tokenNode .otherViewResourceType
  | .subobject => tokenNode .subobjectType
  | .rtxBuiltIn => tokenNode .rtxBuiltInTypes

/-- A built-in type by its first word. -/
def typeOfWord (grammar : Grammar) (depth : Nat) (word : String) : Production :=
  if word = "matrix" then
    node .genericMatrixPredefinedType
      (bump >=>
        templateArguments
          (scalarType >=> expect "," >=> integerLiteral >=> expect "," >=> integerLiteral))
  else
    match Keyword.category? word with
    | some category => typeOfCategory grammar depth category
    | none => scalarType

/-- A built-in type. -/
def predefinedType (grammar : Grammar) (depth : Nat) : Production :=
  node .predefinedType (choose fun rest => typeOfWord grammar depth (Lookahead.text rest 0))

/-- A type. -/
def type (grammar : Grammar) (depth : Nat) : Production :=
  Grammar.nested depth fun depth =>
    node .type <|
      ifAt "typeof" (typeofExpression grammar depth) <|
        ifAhead Lookahead.isPredefinedType (predefinedType grammar depth)
          (userDefinedType grammar depth)

/-- Any number of storage flags; `in out` is one. -/
def storageFlags : Production :=
  whileAhead Lookahead.isStorageFlag <|
    node .storageFlag <|
      ifAhead
        (fun rest =>
          Lookahead.isAt rest 0 "in" && Lookahead.isAt rest 1 "out" && Lookahead.contiguous rest 0)
        (bumpJoined 1 .token) bump

end Production

end Azsl
