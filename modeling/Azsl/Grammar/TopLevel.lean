/-
Azsl.Grammar.TopLevel — the declarations a file is made of, and the knot of the grammar.

`Grammar.upTo fuel` parses every nonterminal with at most `fuel` calls inside one another.
`fuelFor` computes a bound from the number of tokens: a call either takes a token first, or
nests one level deeper, or is the first operand of an expression.
-/
import Azsl.Grammar.Statement

namespace Azsl

namespace Production

/-! ## Includes -/

/-- The path of an include, from its opening delimiter to its closing one. -/
def includePath (closing : String) : Production :=
  bump >=> guard (Lookahead.kind? · 0 == some .includePath) >=> bumpAs .includeFile >=>
  expect closing

/-- The path of an include by its opening delimiter. -/
def includePathOf (opening : String) : Production :=
  if opening = "\"" then includePath "\""
  else if opening = "<" then includePath ">"
  else fail

/-- An include with its path in quotes or angle brackets. -/
def includeStatement : Production :=
  node .includeStatement (bump >=> choose fun rest => includePathOf (Lookahead.text rest 0))

/-! ## Shader resource groups -/

/-- A member of a shader resource group by its first word. -/
def resourceMemberOf (grammar : Grammar) (depth : Nat) (word : String) : Production :=
  if word = "struct" then
    node .structDefinitionStatement (structDefinition grammar depth >=> expect ";")
  else if word = "enum" then
    node .enumDefinitionStatement (enumDefinition grammar depth >=> expect ";")
  else
    orElse (attributedFunction grammar depth)
      (ifAt "[" anyAttribute (variableStatement grammar depth))

/-- A member of a shader resource group. -/
def resourceMember (grammar : Grammar) (depth : Nat) : Production :=
  ifAhead (Lookahead.isAny · ["typealias", "typedef"]) (typeAlias grammar depth) <|
  choose fun rest => resourceMemberOf grammar depth (Lookahead.text rest 0)

/-- A shader resource group. -/
def resourceGroup (grammar : Grammar) (depth : Nat) : Production :=
  node .attributedSrgDefinition <|
    attributes >=>
    node .srgDefinition
      (optional "partial" >=>
        expect "ShaderResourceGroup" >=>
        identifier >=>
        whenAt ":" (bump >=> identifier) >=>
        braced (orRecover (node .srgMemberDeclaration (resourceMember grammar depth))))

/-- The semantic of shader resource groups. -/
def resourceGroupSemantic : Production :=
  node .attributedSrgSemantic <|
    attributes >=>
    node .srgSemantic
      (expect "ShaderResourceGroupSemantic" >=>
        identifier >=>
        node .srgSemanticBodyDeclaration
          (braced (orRecover
            (node .srgSemanticMemberDeclaration
              (guard (Lookahead.isAny · Keyword.srgSemanticFields) >=>
                bump >=>
                expect "=" >=>
                literal >=>
                expect ";")))))

/-! ## Declarations of a file -/

/-- A function, attributes alone, or variables. -/
def functionOrVariables (grammar : Grammar) (depth : Nat) : Production :=
  orElse (attributedFunction grammar depth) <|
    ifAhead Lookahead.isAttributeSequence attributeSequence (variableStatement grammar depth)

/-- A declaration of a file by its first word behind the attributes. -/
def declarationOf (grammar : Grammar) (depth : Nat) (word : String) : Production :=
  if word = "partial" ∨ word = "ShaderResourceGroup" then resourceGroup grammar depth
  else if word = "ShaderResourceGroupSemantic" then resourceGroupSemantic
  else if Keyword.structuredKeywords.contains word then
    orElse (structuredStatement grammar depth) (variableStatement grammar depth)
  else functionOrVariables grammar depth

/-- One declaration of a file. -/
def topLevelDeclaration (grammar : Grammar) (depth : Nat) : Production :=
  ifAhead (Lookahead.kind? · 0 == some .includeDirective) includeStatement <|
  ifAt ";" bump <|
  ifAhead Lookahead.isCompilerExtension (compilerExtension grammar depth) <|
  ifAhead (Lookahead.isAny · ["typealias", "typedef"]) (typeAlias grammar depth) <|
  choose fun rest => declarationOf grammar depth (Lookahead.keyword rest)

end Production

namespace Grammar

/-- One unfolding of every nonterminal. -/
def step (grammar : Grammar) : Grammar
  | .type, depth => Production.type grammar depth
  | .expression minPower, depth => Production.expression grammar minPower depth
  | .unary, depth => Production.unary grammar depth
  | .initializer, depth => Production.initializer grammar depth
  | .structured, depth => Production.structured grammar depth
  | .block, depth => Production.block grammar depth
  | .embedded, depth => Production.embedded grammar depth

/-- The grammar with at most `fuel` calls of nonterminals inside one another. -/
def upTo : Nat → Grammar
  | 0 => fun _ _ _ => .error .outOfFuel
  | fuel + 1 => step (upTo fuel)

/-- A bound on the calls inside one another for an input of so many tokens. -/
def fuelFor (tokens : Nat) : Nat :=
  2 * (tokens + maxDepth) + 2

/-- The grammar for inputs of at most so many tokens. -/
def forTokens (tokens : Nat) : Grammar :=
  upTo (fuelFor tokens)

end Grammar

end Azsl
