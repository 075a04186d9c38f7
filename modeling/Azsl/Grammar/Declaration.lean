/-
Azsl.Grammar.Declaration — functions, variables and structured types.
-/
import Azsl.Grammar.Type
import Azsl.Token.Semantic

namespace Azsl

namespace Production

/-! ## What follows a declared name -/

/-- The leaf of a semantic's word. -/
def semanticLeaf : SemanticKind → NodeKind
  | .stream => .hlslSemanticStream
  | .system => .hlslSemanticSystem
  | .plain => .identifier

/-- A pipeline semantic. -/
def semantic : Production :=
  node .hlslSemantic <|
    expect ":" >=> guard (Lookahead.kind? · 0 == some .word) >=> choose fun rest =>
      bumpAs (semanticLeaf (SemanticKind.ofWord (Lookahead.text rest 0)))

/-- A position in a constant buffer. -/
def packOffset : Production :=
  node .packOffsetNode <|
    expect ":" >=> expect "packoffset" >=> expect "(" >=> identifier >=>
    whenAt "." (bump >=> identifier) >=> expect ")"

/-- A register. -/
def registerAllocation : Production :=
  node .registerAllocation <|
    expect ":" >=> expect "register" >=> expect "(" >=> identifier >=> expect ")"

/-! ## Sampler states -/

/-- One of a few words. -/
def enumValue (kind : NodeKind) (values : List String) : Production :=
  guard (Lookahead.isAny · values) >=> tokenNode kind

/-- A number of one of some kinds, joined with so many tokens before it. -/
def numberAfter (kind : NodeKind) (accepted : List TokenKind) (signs : Nat) : Production :=
  guard (fun rest => (Lookahead.kind? rest signs).any accepted.contains) >=>
  bumpJoined signs kind

/-- A number of one of some kinds, joined with a sign that touches it. -/
def signedNumber (kind : NodeKind) (accepted : List TokenKind) : Production :=
  ifAhead (fun rest => Lookahead.isAny rest ["+", "-"] && Lookahead.adjacent rest 0)
    (numberAfter kind accepted 1) (numberAfter kind accepted 0)

/-- The value of a sampler field. -/
def samplerValue (field : String) : Production :=
  if field = "MaxAnisotropy" then signedNumber .integerLiteral [.integerLiteral]
  else if ["MinFilter", "MagFilter", "MipFilter"].contains field then
    enumValue .filterModeEnum Keyword.filterModes
  else if field = "ReductionType" then enumValue .reductionTypeEnum Keyword.reductionTypes
  else if field = "ComparisonFunc" then
    enumValue .comparisonFunctionEnum Keyword.comparisonFunctions
  else if ["AddressU", "AddressV", "AddressW"].contains field then
    enumValue .addressModeEnum Keyword.addressModes
  else if ["MinLOD", "MaxLOD", "MipLODBias"].contains field then
    signedNumber .floatLiteral [.floatLiteral, .integerLiteral]
  else if field = "BorderColor" then enumValue .borderColorEnum Keyword.borderColors
  else fail

/-- A field of a sampler state by its name. -/
def samplerField (field : String) : Production :=
  bump >=> expect "=" >=> samplerValue field >=> expect ";"

/-- A field of a sampler state. -/
def samplerMember : Production :=
  node .samplerMemberDeclaration (choose fun rest => samplerField (Lookahead.text rest 0))

/-- The body of a sampler state. -/
def samplerBody : Production :=
  node .samplerBodyDeclaration <|
    expect "\x7b" >=>
    whileAhead (fun rest => !Lookahead.isAt rest 0 "\x7d") samplerMember >=>
    expect "\x7d"

/-! ## Variables -/

/-- What may follow `=`: an expression, or values in braces. -/
def initializer (grammar : Grammar) (depth : Nat) : Production :=
  Grammar.nested depth fun depth =>
    node .standardVariableInitializer <|
      ifAt "\x7b"
        (bump >=>
          node .arrayElementInitializers
            (grammar .initializer depth >=>
              whileAhead
                (fun rest => Lookahead.isAt rest 0 "," && !Lookahead.isAt rest 1 "\x7d")
                (bump >=> grammar .initializer depth) >=>
              optional ",") >=>
          expect "\x7d")
        (grammar (.expression 0) depth)

/-- Array sizes, semantic, offset, register and initial value behind a declared name. -/
def declaratorSuffix (grammar : Grammar) (depth : Nat) : Production :=
  whileAt "[" (arrayRank grammar depth) >=>
  whenAhead
    (fun rest =>
      Lookahead.isAt rest 0 ":" && !Lookahead.isAt rest 1 "packoffset" &&
        !Lookahead.isAt rest 1 "register")
    semantic >=>
  whenAhead (fun rest => Lookahead.isAt rest 0 ":" && Lookahead.isAt rest 1 "packoffset")
    packOffset >=>
  whenAhead (fun rest => Lookahead.isAt rest 0 ":" && Lookahead.isAt rest 1 "register")
    registerAllocation >=>
  whenAhead (Lookahead.isAny · ["=", "\x7b"])
    (node .variableInitializer
      (ifAt "=" (bump >=> grammar .initializer depth) samplerBody))

/-- One declared variable. -/
def declarator (grammar : Grammar) (depth : Nat) : Production :=
  node .namedVariableDecorator (identifier >=> declaratorSuffix grammar depth)

/-- Variables of one type. -/
def variableDeclaration (grammar : Grammar) (depth : Nat) : Production :=
  node .variableDeclaration <|
    storageFlags >=>
    grammar .type depth >=>
    node .variableDeclarators (commaSeparated (declarator grammar depth))

/-- Variables of one type and a semicolon. -/
def variableStatement (grammar : Grammar) (depth : Nat) : Production :=
  node .variableDeclarationStatement (variableDeclaration grammar depth >=> expect ";")

/-! ## Functions -/

/-- A bound on a type parameter. -/
def genericConstraint (grammar : Grammar) (depth : Nat) : Production :=
  node .genericConstraint (expect ":" >=> userDefinedType grammar depth)

/-- A type parameter. -/
def genericParameter (grammar : Grammar) (depth : Nat) : Production :=
  node .genericTypeDefinition (identifier >=> whenAt ":" (genericConstraint grammar depth))

/-- The type parameters of a function. -/
def genericParameters (grammar : Grammar) (depth : Nat) : Production :=
  node .genericParameterList <|
    expect "<" >=> commaSeparated (genericParameter grammar depth) >=> expect ">"

/-- A parameter of a function; its name may be left out. -/
def functionParameter (grammar : Grammar) (depth : Nat) : Production :=
  node .functionParam <|
    attributes >=>
    storageFlags >=>
    grammar .type depth >=>
    whenAhead (Lookahead.isName · 0) identifier >=>
    declaratorSuffix grammar depth

/-- The owners of a function whose qualified name has so many names. -/
def ownersOf : Nat → Production
  | owners + 2 => node .userDefinedType (qualifiedName (owners + 1)) >=> expect "::"
  | _ => .ok

/-- The owners of a function defined outside of its type, all but the last name of a qualified
name. -/
def ownerPath : Production :=
  choose fun rest => ownersOf (Lookahead.qualifiedLength rest)

/-- A function up to its body. -/
def signature (grammar : Grammar) (depth : Nat) : Production :=
  node .leadingTypeFunctionSignature <|
    storageFlags >=>
    grammar .type depth >=>
    ownerPath >=>
    identifier >=>
    whenAt "<" (genericParameters grammar depth) >=>
    expect "(" >=>
    unlessAt ")" (node .functionParams (commaSeparated (functionParameter grammar depth))) >=>
    expect ")" >=>
    optional "override" >=>
    whenAt ":" semantic

/-- A function with its attributes, declared or defined; what follows the signature decides. -/
def attributedFunction (grammar : Grammar) (depth : Nat) : Production :=
  inScope <|
    attributes >=>
    nodeThen (signature grammar depth) fun rest =>
      if Lookahead.isAt rest 0 ";" then
        ⟨bump, .functionDeclaration, .attributedFunctionDeclaration⟩
      else
        ⟨guard (Lookahead.isAt · 0 "\x7b") >=> grammar .block depth, .functionDefinition,
          .attributedFunctionDefinition⟩

/-- A function with its attributes, declared. -/
def functionDeclaration (grammar : Grammar) (depth : Nat) : Production :=
  node .attributedFunctionDeclaration <|
    attributes >=> node .functionDeclaration (signature grammar depth >=> expect ";")

/-! ## Type aliases and compiler extensions -/

/-- Another name for a type. -/
def typeAlias (grammar : Grammar) (depth : Nat) : Production :=
  node .typeAliasingDefinitionStatement <|
    ifAt "typealias"
      (node .typeAliasStatement
        (bump >=> identifier >=> expect "=" >=> grammar .type depth >=> expect ";"))
      (node .typedefStatement
        (expect "typedef" >=> grammar .type depth >=> identifier >=> expect ";"))

/-- A statement addressed to the compiler. -/
def compilerExtension (grammar : Grammar) (depth : Nat) : Production :=
  node .compilerExtensionStatement <|
    ifAt "__azslc_print_message" (bump >=> expect "(" >=> stringLiteral)
      (expect "__azslc_print_symbol" >=>
        expect "(" >=>
        ifAt "typeof" (typeofExpression grammar depth) idExpression >=>
        expect "," >=>
        guard (Lookahead.isAny · Keyword.printQualifiers) >=>
        bump) >=>
    expect ")" >=>
    expect ";"

/-! ## Structured types -/

/-- The definition of a type with its attributes. -/
def structuredStatement (grammar : Grammar) (depth : Nat) : Production :=
  node .anyStructuredTypeDefinitionStatement <|
    attributes >=> grammar .structured depth >=> expect ";"

/-- A member of a class or a struct: an alias, a type, a function, variables or attributes
alone. -/
def aggregateMember (grammar : Grammar) (depth : Nat) : Production :=
  ifAhead (Lookahead.isAny · ["typealias", "typedef"]) (typeAlias grammar depth) <|
    let others := plainMember
    ifAhead (fun rest => Keyword.structuredKeywords.contains (Lookahead.keyword rest))
      (orElse (structuredStatement grammar depth) others) others
where
  /-- A function, variables, or attributes alone. -/
  plainMember : Production :=
    orElse (attributedFunction grammar depth) <|
      ifAt "[" anyAttribute (variableStatement grammar depth)

/-- A class. -/
def classDefinition (grammar : Grammar) (depth : Nat) : Production :=
  node .classDefinition <|
    expect "class" >=>
    identifier >=>
    whenAt ":" (node .baseList (bump >=> commaSeparated idExpression)) >=>
    braced (orRecover (node .classMemberDeclaration (aggregateMember grammar depth)))

/-- A struct. -/
def structDefinition (grammar : Grammar) (depth : Nat) : Production :=
  node .structDefinition <|
    expect "struct" >=>
    identifier >=>
    braced (orRecover (node .structMemberDeclaration (aggregateMember grammar depth)))

/-- A type that the implementers of an interface choose. -/
def associatedType (grammar : Grammar) (depth : Nat) : Production :=
  node .associatedTypeDeclaration <|
    expect "associatedtype" >=>
    identifier >=>
    whenAt ":" (genericConstraint grammar depth) >=>
    expect ";"

/-- An interface. -/
def interfaceDefinition (grammar : Grammar) (depth : Nat) : Production :=
  node .interfaceDefinition <|
    expect "interface" >=>
    identifier >=>
    braced (orRecover
      (node .interfaceMemberDeclaration <|
        ifAt "associatedtype" (associatedType grammar depth) <|
        ifAhead (fun rest => Keyword.structuredKeywords.contains (Lookahead.keyword rest))
          (structuredStatement grammar depth) (functionDeclaration grammar depth)))

/-- A member of an enumeration. -/
def enumerator (grammar : Grammar) (depth : Nat) : Production :=
  node .enumeratorDeclarator <|
    identifier >=> whenAt "=" (bump >=> grammar (.expression 0) depth)

/-- An enumeration. A comma may stand behind the last member. -/
def enumDefinition (grammar : Grammar) (depth : Nat) : Production :=
  node .enumDefinition <|
    node .enumKey
      (expect "enum" >=> whenAhead (Lookahead.isAny · ["class", "struct"]) bump) >=>
    identifier >=>
    braced (orRecover
      (node .enumeratorListDefinition <|
        enumerator grammar depth >=>
        whileAhead
          (fun rest => Lookahead.isAt rest 0 "," && !Lookahead.isAt rest 1 "\x7d")
          (bump >=> enumerator grammar depth) >=>
        optional ","))

/-- The definition of a type by its keyword. -/
def structuredOf (grammar : Grammar) (depth : Nat) (word : String) : Production :=
  if word = "class" then classDefinition grammar depth
  else if word = "interface" then interfaceDefinition grammar depth
  else if word = "struct" then structDefinition grammar depth
  else if word = "enum" then enumDefinition grammar depth
  else fail

/-- The definition of a type. -/
def structured (grammar : Grammar) (depth : Nat) : Production :=
  Grammar.nested depth fun depth =>
    node .anyStructuredTypeDefinition
      (choose fun rest => structuredOf grammar depth (Lookahead.text rest 0))

end Production

end Azsl
