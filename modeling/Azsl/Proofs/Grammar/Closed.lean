/-
Azsl.Proofs.Grammar.Closed — properties that are kept when productions are combined.

A property of productions that all ways to combine them keep holds of every production of the
grammar, if it holds of the nonterminals, of names, and of the expressions with commas. These are
left open, and so is what operands are made of: a property may tell the nodes of expressions apart
from all others, and has to be checked where they are built.
-/
import Azsl.Grammar.TopLevel
import Mathlib.Tactic.SplitIfs

namespace Azsl

/-- The kinds of nodes that expressions are made of. -/
def NodeKind.isOperand : NodeKind → Bool
  | .expressionExt | .expression | .idExpression | .argumentList => true
  | _ => false

theorem NodeKind.ne_of_isOperand {kind : NodeKind} (h : kind.isOperand = false) :
    kind ≠ .expressionExt ∧ kind ≠ .expression ∧ kind ≠ .idExpression ∧ kind ≠ .argumentList := by
  refine ⟨?_, ?_, ?_, ?_⟩ <;> rintro rfl <;> cases h

open Production in
/-- A property that is kept by every way to combine productions at a nesting depth. -/
structure Closed (grammar : Grammar) (depth : Nat) (P : Production → Prop) : Prop where
  skip : P .ok
  fail : P fail
  take : ∀ count kind, kind.isOperand = false → P (bumpJoined count kind)
  string : P stringLiteral
  choose : ∀ {select}, (∀ input, P (select input)) → P (choose select)
  orElse : ∀ {first second}, P first → P second → P (orElse first second)
  seq : ∀ {first second}, P first → P second → P (first >=> second)
  node : ∀ {kind body}, kind.isOperand = false → P body → P (node kind body)
  inScope : ∀ {body}, P body → P (inScope body)
  nodeThen : ∀ {head select}, P head →
    (∀ input, P (select input).tail ∧ (select input).kind.isOperand = false ∧
      (select input).around.isOperand = false) → P (nodeThen head select)
  whileAhead : ∀ {look body}, P body → P (whileAhead look body)
  braced : ∀ {item}, P item → P (braced item)
  recover : P recover
  orRecover : ∀ {item}, P item → P (orRecover item)
  qualifiedName : ∀ count, P (qualifiedName count)
  expressionExt : P (expressionExt grammar depth)
  call : ∀ rule, P (grammar rule depth)

namespace Closed

variable {grammar : Grammar} {depth : Nat} {P : Production → Prop}

/-! ## Tokens and choices -/

theorem ifAhead (h : Closed grammar depth P) {look : List Lexeme → Bool} {yes no : Production}
    (hyes : P yes) (hno : P no) : P (Production.ifAhead look yes no) := by
  have heq : Production.ifAhead look yes no
      = Production.choose fun rest => if look rest then yes else no := by
    funext state
    simp only [Production.ifAhead, Production.choose]
    split <;> rfl
  rw [heq]
  refine h.choose fun input => ?_
  split
  · exact hyes
  · exact hno

theorem whenAhead (h : Closed grammar depth P) {look : List Lexeme → Bool} {body : Production}
    (hbody : P body) : P (Production.whenAhead look body) :=
  h.ifAhead hbody h.skip

theorem ifAt (h : Closed grammar depth P) {text : String} {yes no : Production}
    (hyes : P yes) (hno : P no) : P (Production.ifAt text yes no) :=
  h.ifAhead hyes hno

theorem whenAt (h : Closed grammar depth P) {text : String} {body : Production}
    (hbody : P body) : P (Production.whenAt text body) :=
  h.ifAt hbody h.skip

theorem unlessAt (h : Closed grammar depth P) {text : String} {body : Production}
    (hbody : P body) : P (Production.unlessAt text body) :=
  h.ifAt h.skip hbody

theorem guard (h : Closed grammar depth P) (look : List Lexeme → Bool) :
    P (Production.guard look) :=
  h.ifAhead h.skip h.fail

theorem bump (h : Closed grammar depth P) : P Production.bump :=
  h.take 0 .token (by decide)

theorem expect (h : Closed grammar depth P) (text : String) : P (Production.expect text) := by
  have hexpect : Production.expect text
      = Production.ifAhead (Lookahead.isAt · 0 text) Production.bump Production.fail := rfl
  rw [hexpect]
  exact h.ifAhead h.bump h.fail

theorem optional (h : Closed grammar depth P) (text : String) : P (Production.optional text) :=
  h.whenAt h.bump

theorem tokenNode (h : Closed grammar depth P) {kind : NodeKind} (hkind : kind.isOperand = false) :
    P (Production.tokenNode kind) :=
  h.node hkind h.bump

theorem whileAt (h : Closed grammar depth P) {text : String} {body : Production} (hbody : P body) :
    P (Production.whileAt text body) :=
  h.whileAhead hbody

theorem commaSeparated (h : Closed grammar depth P) {body : Production} (hbody : P body) :
    P (Production.commaSeparated body) :=
  h.seq hbody (h.whileAt (h.seq h.bump hbody))

/-! ## Names, literals and attributes -/

theorem identifier (h : Closed grammar depth P) : P Production.identifier :=
  h.seq (h.guard _) (h.take 0 .identifier (by decide))

theorem idExpression (h : Closed grammar depth P) : P Production.idExpression :=
  h.choose fun _ => h.qualifiedName _

theorem integerLiteral (h : Closed grammar depth P) : P Production.integerLiteral :=
  h.seq (h.guard _) (h.take 0 .integerLiteral (by decide))

theorem literalOf (h : Closed grammar depth P) (kind : Option TokenKind) :
    P (Production.literalOf kind) := by
  unfold Production.literalOf
  split
  · exact h.take 0 .integerLiteral (by decide)
  · exact h.take 0 .floatLiteral (by decide)
  · exact h.string
  · exact h.seq (h.guard _) h.bump

theorem literal (h : Closed grammar depth P) : P Production.literal :=
  h.node (by decide) (h.choose fun _ => h.literalOf _)

theorem attributeArgument (h : Closed grammar depth P) : P Production.attributeArgument :=
  h.node (by decide) (h.ifAhead h.literal h.idExpression)

theorem attributeArgumentList (h : Closed grammar depth P) : P Production.attributeArgumentList :=
  h.node (by decide) <| h.seq (h.expect "(") <| h.seq h.attributeArgument <|
    h.seq (h.whileAhead (h.seq (h.optional ",") h.attributeArgument)) (h.expect ")")

theorem attributeItem (h : Closed grammar depth P) : P Production.attributeItem :=
  h.node (by decide) <| h.seq (h.whenAhead (h.seq h.bump (h.expect "::"))) <|
    h.seq h.identifier <| h.seq (h.whenAt (h.seq h.bump h.identifier)) <|
    h.whenAt h.attributeArgumentList

theorem attributeSpecifier (h : Closed grammar depth P) : P Production.attributeSpecifier :=
  h.node (by decide) (h.seq (h.expect "[") (h.seq h.attributeItem (h.expect "]")))

theorem attributeSequence (h : Closed grammar depth P) : P Production.attributeSequence :=
  h.node (by decide) <| h.seq (h.guard _) <| h.seq (h.take 1 .token (by decide)) <|
    h.seq (h.commaSeparated h.attributeItem) <| h.seq (h.guard _) (h.take 1 .token (by decide))

theorem anyAttribute (h : Closed grammar depth P) : P Production.anyAttribute :=
  h.node (by decide) (h.ifAhead h.attributeSequence h.attributeSpecifier)

theorem attributes (h : Closed grammar depth P) : P Production.attributes :=
  h.whileAt h.anyAttribute

/-! ## Operands -/

theorem templateArguments (h : Closed grammar depth P) {body : Production} (hbody : P body) :
    P (Production.templateArguments body) :=
  h.seq (h.expect "<") (h.seq hbody (h.expect ">"))

theorem scalarType (h : Closed grammar depth P) : P Production.scalarType :=
  h.ifAhead (h.node (by decide) (h.take 1 .token (by decide)))
    (h.seq (h.guard _) (h.tokenNode (by decide)))

theorem scalarOrVectorType (h : Closed grammar depth P) : P Production.scalarOrVectorType :=
  h.ifAhead (h.tokenNode (by decide)) h.scalarType

theorem numericType (h : Closed grammar depth P) : P Production.numericType :=
  h.node (by decide) (h.ifAhead (h.tokenNode (by decide)) h.scalarOrVectorType)

theorem arrayRank (h : Closed grammar depth P) : P (Production.arrayRank grammar depth) :=
  h.node (by decide) (h.seq (h.expect "[") (h.seq (h.unlessAt (h.call _)) (h.expect "]")))

/-! ## Types -/

theorem userDefinedType (h : Closed grammar depth P) :
    P (Production.userDefinedType grammar depth) :=
  h.node (by decide) (h.ifAhead (h.call .structured) h.idExpression)

theorem typeofExpression (h : Closed grammar depth P) :
    P (Production.typeofExpression grammar depth) :=
  h.node (by decide) <| h.seq (h.expect "typeof") <| h.seq (h.expect "(") <|
    h.seq (h.orElse (h.seq (h.call .type) (h.guard _)) h.expressionExt) <|
    h.seq (h.expect ")") <| h.whenAt (h.seq h.bump h.idExpression)

theorem templatedType (h : Closed grammar depth P) {kind : NodeKind}
    (hkind : kind.isOperand = false) : P (Production.templatedType grammar depth kind) :=
  h.node hkind (h.seq h.bump (h.templateArguments (h.call .type)))

theorem typeOfCategory (h : Closed grammar depth P) (category : TypeCategory) :
    P (Production.typeOfCategory grammar depth category) := by
  unfold Production.typeOfCategory
  cases category with
  | void => exact h.bump
  | scalar => exact h.scalarType
  | vector =>
    exact h.ifAhead (h.node (by decide) <| h.seq h.bump <| h.templateArguments <|
      h.seq h.scalarType (h.seq (h.expect ",") h.integerLiteral)) (h.tokenNode (by decide))
  | buffer =>
    exact h.node (by decide) (h.seq (h.tokenNode (by decide)) (h.templateArguments h.numericType))
  | patch =>
    exact h.node (by decide) <| h.seq h.bump <| h.templateArguments <|
      h.seq h.userDefinedType (h.seq (h.expect ",") h.integerLiteral)
  | texture =>
    exact h.ifAhead (h.node (by decide) (h.seq (h.tokenNode (by decide))
      (h.templateArguments h.scalarOrVectorType))) (h.tokenNode (by decide))
  | msTexture =>
    exact h.node (by decide) <| h.seq h.bump <| h.templateArguments <|
      h.seq h.scalarOrVectorType (h.whenAt (h.seq h.bump h.integerLiteral))
  | streamOutput | structuredBuffer | constantBuffer => exact h.templatedType (by decide)
  | matrix | byteAddressBuffer | sampler | otherViewResource | subobject | rtxBuiltIn =>
    exact h.tokenNode (by decide)

theorem typeOfWord (h : Closed grammar depth P) (word : String) :
    P (Production.typeOfWord grammar depth word) := by
  unfold Production.typeOfWord
  split
  · exact h.node (by decide) <| h.seq h.bump <| h.templateArguments <| h.seq h.scalarType <|
      h.seq (h.expect ",") <| h.seq h.integerLiteral <| h.seq (h.expect ",") h.integerLiteral
  · split
    · exact h.typeOfCategory _
    · exact h.scalarType

theorem predefinedType (h : Closed grammar depth P) : P (Production.predefinedType grammar depth) :=
  h.node (by decide) (h.choose fun _ => h.typeOfWord _)

/-- A type behind the check of its depth. -/
theorem type (h : Closed grammar (depth + 1) P) (hdepth : depth < Grammar.maxDepth) :
    P (Production.type grammar depth) := by
  rw [Production.type, Grammar.nested, if_neg (Nat.not_le.mpr hdepth)]
  exact h.node (by decide)
    (h.ifAt h.typeofExpression (h.ifAhead h.predefinedType h.userDefinedType))

theorem storageFlags (h : Closed grammar depth P) : P Production.storageFlags :=
  h.whileAhead (h.node (by decide) (h.ifAhead (h.take 1 .token (by decide)) h.bump))

/-! ## Variables -/

theorem semantic (h : Closed grammar depth P) : P Production.semantic := by
  refine h.node (by decide) (h.seq (h.expect ":") (h.seq (h.guard _) (h.choose fun input => ?_)))
  cases SemanticKind.ofWord (Lookahead.text input 0) <;> exact h.take 0 _ (by decide)

theorem packOffset (h : Closed grammar depth P) : P Production.packOffset :=
  h.node (by decide) <| h.seq (h.expect ":") <| h.seq (h.expect "packoffset") <|
    h.seq (h.expect "(") <| h.seq h.identifier <|
    h.seq (h.whenAt (h.seq h.bump h.identifier)) (h.expect ")")

theorem registerAllocation (h : Closed grammar depth P) : P Production.registerAllocation :=
  h.node (by decide) <| h.seq (h.expect ":") <| h.seq (h.expect "register") <|
    h.seq (h.expect "(") (h.seq h.identifier (h.expect ")"))

theorem enumValue (h : Closed grammar depth P) {kind : NodeKind} (hkind : kind.isOperand = false)
    (values : List String) : P (Production.enumValue kind values) :=
  h.seq (h.guard _) (h.tokenNode hkind)

theorem signedNumber (h : Closed grammar depth P) {kind : NodeKind} (hkind : kind.isOperand = false)
    (accepted : List TokenKind) : P (Production.signedNumber kind accepted) :=
  h.ifAhead (h.seq (h.guard _) (h.take 1 kind hkind)) (h.seq (h.guard _) (h.take 0 kind hkind))

theorem samplerValue (h : Closed grammar depth P) (field : String) :
    P (Production.samplerValue field) := by
  unfold Production.samplerValue
  split
  · exact h.signedNumber (by decide) _
  split
  · exact h.enumValue (by decide) _
  split
  · exact h.enumValue (by decide) _
  split
  · exact h.enumValue (by decide) _
  split
  · exact h.enumValue (by decide) _
  split
  · exact h.signedNumber (by decide) _
  split
  · exact h.enumValue (by decide) _
  · exact h.fail

theorem samplerMember (h : Closed grammar depth P) : P Production.samplerMember :=
  h.node (by decide) <| h.choose fun _ =>
    h.seq h.bump (h.seq (h.expect "=") (h.seq (h.samplerValue _) (h.expect ";")))

theorem samplerBody (h : Closed grammar depth P) : P Production.samplerBody :=
  h.node (by decide) <| h.seq (h.expect "\x7b") <|
    h.seq (h.whileAhead h.samplerMember) (h.expect "\x7d")

/-- An initial value behind the check of its depth. -/
theorem initializer (h : Closed grammar (depth + 1) P) (hdepth : depth < Grammar.maxDepth) :
    P (Production.initializer grammar depth) := by
  rw [Production.initializer, Grammar.nested, if_neg (Nat.not_le.mpr hdepth)]
  exact h.node (by decide) <| h.ifAt
    (h.seq h.bump <| h.seq
      (h.node (by decide) <| h.seq (h.call .initializer) <|
        h.seq (h.whileAhead (h.seq h.bump (h.call .initializer))) (h.optional ","))
      (h.expect "\x7d"))
    (h.call (.expression 0))

theorem declaratorSuffix (h : Closed grammar depth P) :
    P (Production.declaratorSuffix grammar depth) :=
  h.seq (h.whileAt h.arrayRank) <| h.seq (h.whenAhead h.semantic) <|
    h.seq (h.whenAhead h.packOffset) <| h.seq (h.whenAhead h.registerAllocation) <|
    h.whenAhead (h.node (by decide) (h.ifAt (h.seq h.bump (h.call .initializer)) h.samplerBody))

theorem variableDeclaration (h : Closed grammar depth P) :
    P (Production.variableDeclaration grammar depth) :=
  h.node (by decide) <| h.seq h.storageFlags <| h.seq (h.call .type) <|
    h.node (by decide)
      (h.commaSeparated (h.node (by decide) (h.seq h.identifier h.declaratorSuffix)))

theorem variableStatement (h : Closed grammar depth P) :
    P (Production.variableStatement grammar depth) :=
  h.node (by decide) (h.seq h.variableDeclaration (h.expect ";"))

/-! ## Functions and aliases -/

theorem genericConstraint (h : Closed grammar depth P) :
    P (Production.genericConstraint grammar depth) :=
  h.node (by decide) (h.seq (h.expect ":") h.userDefinedType)

theorem genericParameters (h : Closed grammar depth P) :
    P (Production.genericParameters grammar depth) :=
  h.node (by decide) <| h.seq (h.expect "<") <| h.seq
    (h.commaSeparated (h.node (by decide) (h.seq h.identifier (h.whenAt h.genericConstraint))))
    (h.expect ">")

theorem functionParameter (h : Closed grammar depth P) :
    P (Production.functionParameter grammar depth) :=
  h.node (by decide) <| h.seq h.attributes <| h.seq h.storageFlags <| h.seq (h.call .type) <|
    h.seq (h.whenAhead h.identifier) h.declaratorSuffix

theorem ownerPath (h : Closed grammar depth P) : P Production.ownerPath := by
  refine h.choose fun input => ?_
  unfold Production.ownersOf
  split
  · exact h.seq (h.node (by decide) (h.qualifiedName _)) (h.expect "::")
  · exact h.skip

theorem signature (h : Closed grammar depth P) : P (Production.signature grammar depth) :=
  h.node (by decide) <| h.seq h.storageFlags <| h.seq (h.call .type) <| h.seq h.ownerPath <|
    h.seq h.identifier <| h.seq (h.whenAt h.genericParameters) <| h.seq (h.expect "(") <|
    h.seq (h.unlessAt (h.node (by decide) (h.commaSeparated h.functionParameter))) <|
    h.seq (h.expect ")") <| h.seq (h.optional "override") (h.whenAt h.semantic)

theorem attributedFunction (h : Closed grammar depth P) :
    P (Production.attributedFunction grammar depth) := by
  refine h.inScope (h.seq h.attributes (h.nodeThen h.signature fun input => ?_))
  split
  · exact ⟨h.bump, rfl, rfl⟩
  · exact ⟨h.seq (h.guard _) (h.call .block), rfl, rfl⟩

theorem functionDeclaration (h : Closed grammar depth P) :
    P (Production.functionDeclaration grammar depth) :=
  h.node (by decide) (h.seq h.attributes (h.node (by decide) (h.seq h.signature (h.expect ";"))))

theorem typeAlias (h : Closed grammar depth P) : P (Production.typeAlias grammar depth) :=
  h.node (by decide) <| h.ifAt
    (h.node (by decide) <| h.seq h.bump <| h.seq h.identifier <| h.seq (h.expect "=") <|
      h.seq (h.call .type) (h.expect ";"))
    (h.node (by decide) <| h.seq (h.expect "typedef") <| h.seq (h.call .type) <|
      h.seq h.identifier (h.expect ";"))

theorem compilerExtension (h : Closed grammar depth P) :
    P (Production.compilerExtension grammar depth) :=
  h.node (by decide) <| h.seq
    (h.ifAt (h.seq h.bump (h.seq (h.expect "(") h.string)) <|
      h.seq (h.expect "__azslc_print_symbol") <| h.seq (h.expect "(") <|
      h.seq (h.ifAt h.typeofExpression h.idExpression) <| h.seq (h.expect ",") <|
      h.seq (h.guard _) h.bump) <|
    h.seq (h.expect ")") (h.expect ";")

/-! ## Structured types -/

theorem structuredStatement (h : Closed grammar depth P) :
    P (Production.structuredStatement grammar depth) :=
  h.node (by decide) (h.seq h.attributes (h.seq (h.call .structured) (h.expect ";")))

theorem aggregateMember (h : Closed grammar depth P) :
    P (Production.aggregateMember grammar depth) := by
  have hothers : P (Production.aggregateMember.plainMember grammar depth) :=
    h.orElse h.attributedFunction (h.ifAt h.anyAttribute h.variableStatement)
  exact h.ifAhead h.typeAlias (h.ifAhead (h.orElse h.structuredStatement hothers) hothers)

theorem structDefinition (h : Closed grammar depth P) :
    P (Production.structDefinition grammar depth) :=
  h.node (by decide) <| h.seq (h.expect "struct") <| h.seq h.identifier <|
    h.braced (h.orRecover (h.node (by decide) h.aggregateMember))

theorem classDefinition (h : Closed grammar depth P) :
    P (Production.classDefinition grammar depth) :=
  h.node (by decide) <| h.seq (h.expect "class") <| h.seq h.identifier <|
    h.seq (h.whenAt (h.node (by decide) (h.seq h.bump (h.commaSeparated h.idExpression)))) <|
    h.braced (h.orRecover (h.node (by decide) h.aggregateMember))

theorem interfaceDefinition (h : Closed grammar depth P) :
    P (Production.interfaceDefinition grammar depth) :=
  h.node (by decide) <| h.seq (h.expect "interface") <| h.seq h.identifier <|
    h.braced <| h.orRecover <| h.node (by decide) <| h.ifAt
      (h.node (by decide) <| h.seq (h.expect "associatedtype") <| h.seq h.identifier <|
        h.seq (h.whenAt h.genericConstraint) (h.expect ";"))
      (h.ifAhead h.structuredStatement h.functionDeclaration)

theorem enumDefinition (h : Closed grammar depth P) : P (Production.enumDefinition grammar depth) :=
  have henumerator : P (Production.enumerator grammar depth) :=
    h.node (by decide) (h.seq h.identifier (h.whenAt (h.seq h.bump (h.call (.expression 0)))))
  h.node (by decide) <|
    h.seq (h.node (by decide) (h.seq (h.expect "enum") (h.whenAhead h.bump))) <|
    h.seq h.identifier <| h.braced <| h.orRecover <| h.node (by decide) <| h.seq henumerator <|
    h.seq (h.whileAhead (h.seq h.bump henumerator)) (h.optional ",")

/-- The definition of a type behind the check of its depth. -/
theorem structured (h : Closed grammar (depth + 1) P) (hdepth : depth < Grammar.maxDepth) :
    P (Production.structured grammar depth) := by
  rw [Production.structured, Grammar.nested, if_neg (Nat.not_le.mpr hdepth)]
  refine h.node (by decide) (h.choose fun input => ?_)
  unfold Production.structuredOf
  split
  · exact h.classDefinition
  split
  · exact h.interfaceDefinition
  split
  · exact h.structDefinition
  split
  · exact h.enumDefinition
  · exact h.fail

/-! ## Statements -/

theorem statement (h : Closed grammar depth P) : P (Production.statement grammar depth) := by
  have hothers : P (Production.statement.declarationOrOther grammar depth) :=
    h.ifAhead (h.orElse h.variableStatement (h.call .embedded)) (h.call .embedded)
  exact h.node (by decide) (h.ifAhead (h.orElse h.structuredStatement hothers) hothers)

/-- Statements in braces behind the check of their depth. -/
theorem block (h : Closed grammar (depth + 1) P) (hdepth : depth < Grammar.maxDepth) :
    P (Production.block grammar depth) := by
  rw [Production.block, Grammar.nested, if_neg (Nat.not_le.mpr hdepth)]
  exact h.node (by decide) (h.braced (h.orRecover h.statement))

theorem condition (h : Closed grammar depth P) : P (Production.condition grammar depth) :=
  h.seq (h.expect "(") (h.seq h.expressionExt (h.expect ")"))

theorem ifStatement (h : Closed grammar depth P) : P (Production.ifStatement grammar depth) :=
  h.seq (h.expect "if") <| h.seq h.condition <| h.seq (h.call .embedded) <|
    h.whenAt (h.node (by decide) (h.seq h.bump (h.call .embedded)))

theorem switchStatement (h : Closed grammar depth P) :
    P (Production.switchStatement grammar depth) :=
  have hlabel : P (Production.switchSection grammar depth) :=
    h.node (by decide) <| h.seq
      (h.whileAhead (h.node (by decide)
        (h.seq (h.ifAt (h.seq h.bump (h.call (.expression 0))) h.bump) (h.expect ":"))))
      (h.whileAhead (h.orRecover h.statement))
  h.seq (h.expect "switch") <| h.seq h.condition <|
    h.node (by decide) (h.braced (h.ifAhead hlabel h.recover))

theorem whileStatement (h : Closed grammar depth P) :
    P (Production.whileStatement grammar depth) :=
  h.seq (h.expect "while") (h.seq h.condition (h.call .embedded))

theorem doStatement (h : Closed grammar depth P) : P (Production.doStatement grammar depth) :=
  h.seq (h.expect "do") <| h.seq (h.call .embedded) <| h.seq (h.expect "while") <|
    h.seq h.condition (h.expect ";")

theorem forStatement (h : Closed grammar depth P) : P (Production.forStatement grammar depth) :=
  h.seq (h.expect "for") <| h.seq (h.expect "(") <|
    h.seq (h.unlessAt (h.node (by decide)
      (h.orElse (h.seq h.variableDeclaration (h.guard _)) h.expressionExt))) <|
    h.seq (h.expect ";") <| h.seq (h.unlessAt h.expressionExt) <| h.seq (h.expect ";") <|
    h.seq (h.unlessAt h.expressionExt) <| h.seq (h.expect ")") (h.call .embedded)

theorem plainStatement (h : Closed grammar depth P) (word : String) :
    P (Production.plainStatement grammar depth word) := by
  unfold Production.plainStatement
  split
  · exact h.seq h.bump (h.expect ";")
  split
  · exact h.seq h.bump (h.seq (h.unlessAt h.expressionExt) (h.expect ";"))
  split
  · exact h.typeAlias
  · exact h.ifAhead h.compilerExtension (h.seq h.expressionExt (h.expect ";"))

theorem statementOf (h : Closed grammar depth P) (attributed : Bool) (word : String) :
    P (Production.statementOf grammar depth attributed word) := by
  unfold Production.statementOf Production.attributableStatement?
  split
  · rename_i production hsome
    split_ifs at hsome <;> obtain rfl := Option.some.inj hsome
    · exact h.ifStatement
    · exact h.switchStatement
    · exact h.whileStatement
    · exact h.doStatement
    · exact h.forStatement
  · split
    · exact h.fail
    · exact h.plainStatement word

/-- A statement behind the check of its depth. -/
theorem embedded (h : Closed grammar (depth + 1) P) (hdepth : depth < Grammar.maxDepth) :
    P (Production.embedded grammar depth) := by
  rw [Production.embedded, Grammar.nested, if_neg (Nat.not_le.mpr hdepth)]
  exact h.node (by decide) <| h.ifAt h.bump <| h.ifAt (h.call .block) <| h.choose fun _ =>
    h.seq (h.whileAt h.attributeSpecifier) (h.choose fun _ => h.statementOf _ _)

/-! ## Declarations of a file -/

theorem includeStatement (h : Closed grammar depth P) : P Production.includeStatement := by
  have hpath : ∀ closing, P (Production.includePath closing) := fun closing =>
    h.seq h.bump (h.seq (h.guard _) (h.seq (h.take 0 _ (by decide)) (h.expect closing)))
  refine h.node (by decide) (h.seq h.bump (h.choose fun input => ?_))
  unfold Production.includePathOf
  split
  · exact hpath "\""
  split
  · exact hpath ">"
  · exact h.fail

theorem resourceMember (h : Closed grammar depth P) :
    P (Production.resourceMember grammar depth) := by
  refine h.ifAhead h.typeAlias (h.choose fun input => ?_)
  unfold Production.resourceMemberOf
  split
  · exact h.node (by decide) (h.seq h.structDefinition (h.expect ";"))
  split
  · exact h.node (by decide) (h.seq h.enumDefinition (h.expect ";"))
  · exact h.orElse h.attributedFunction (h.ifAt h.anyAttribute h.variableStatement)

theorem resourceGroup (h : Closed grammar depth P) : P (Production.resourceGroup grammar depth) :=
  h.node (by decide) <| h.seq h.attributes <| h.node (by decide) <|
    h.seq (h.optional "partial") <| h.seq (h.expect "ShaderResourceGroup") <|
    h.seq h.identifier <| h.seq (h.whenAt (h.seq h.bump h.identifier)) <|
    h.braced (h.orRecover (h.node (by decide) h.resourceMember))

theorem resourceGroupSemantic (h : Closed grammar depth P) : P Production.resourceGroupSemantic :=
  h.node (by decide) <| h.seq h.attributes <| h.node (by decide) <|
    h.seq (h.expect "ShaderResourceGroupSemantic") <| h.seq h.identifier <|
    h.node (by decide) <| h.braced <| h.orRecover <| h.node (by decide) <|
    h.seq (h.guard _) <| h.seq h.bump <| h.seq (h.expect "=") <| h.seq h.literal (h.expect ";")

theorem declarationOf (h : Closed grammar depth P) (word : String) :
    P (Production.declarationOf grammar depth word) := by
  unfold Production.declarationOf
  split
  · exact h.resourceGroup
  split
  · exact h.resourceGroupSemantic
  split
  · exact h.orElse h.structuredStatement h.variableStatement
  · exact h.orElse h.attributedFunction (h.ifAhead h.attributeSequence h.variableStatement)

theorem topLevelDeclaration (h : Closed grammar depth P) :
    P (Production.topLevelDeclaration grammar depth) :=
  h.ifAhead h.includeStatement <| h.ifAt h.bump <| h.ifAhead h.compilerExtension <|
    h.ifAhead h.typeAlias (h.choose fun _ => h.declarationOf _)

/-! ## Nonterminals -/

/-- All nonterminals but expressions and operands are one level of nesting, or fail. -/
theorem step {rule : Rule} (hrule : rule ≠ .unary ∧ ∀ minPower, rule ≠ .expression minPower)
    (hfail : P Production.fail)
    (h : depth < Grammar.maxDepth → Closed grammar (depth + 1) P) :
    P (Grammar.step grammar rule depth) := by
  by_cases hdepth : depth < Grammar.maxDepth
  · have hclosed := h hdepth
    cases rule with
    | type => exact hclosed.type hdepth
    | expression minPower => exact absurd rfl (hrule.2 minPower)
    | unary => exact absurd rfl hrule.1
    | initializer => exact hclosed.initializer hdepth
    | structured => exact hclosed.structured hdepth
    | block => exact hclosed.block hdepth
    | embedded => exact hclosed.embedded hdepth
  · have hnested : ∀ body, P (Grammar.nested depth body) := by
      intro body
      rw [Grammar.nested, if_pos (Nat.not_lt.mp hdepth)]
      exact hfail
    cases rule with
    | expression minPower => exact absurd rfl (hrule.2 minPower)
    | unary => exact absurd rfl hrule.1
    | type => rw [Grammar.step, Production.type]; exact hnested _
    | initializer => rw [Grammar.step, Production.initializer]; exact hnested _
    | structured => rw [Grammar.step, Production.structured]; exact hnested _
    | block => rw [Grammar.step, Production.block]; exact hnested _
    | embedded => rw [Grammar.step, Production.embedded]; exact hnested _

end Closed

end Azsl
