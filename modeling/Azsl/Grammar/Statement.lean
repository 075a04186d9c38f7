/-
Azsl.Grammar.Statement — blocks and statements.
-/
import Azsl.Grammar.Declaration

namespace Azsl

namespace Production

/-- A statement inside a block. Definitions and declarations are tried before anything else. -/
def statement (grammar : Grammar) (depth : Nat) : Production :=
  node .statement <|
    ifAhead (fun rest => Keyword.structuredKeywords.contains (Lookahead.keyword rest))
      (orElse (structuredStatement grammar depth) declarationOrOther) declarationOrOther
where
  /-- Variables, or a statement that may also stand alone behind a condition. -/
  declarationOrOther : Production :=
    ifAhead (fun rest => !Lookahead.isCompilerExtension rest && Lookahead.startsType rest)
      (orElse (variableStatement grammar depth) (grammar .embedded depth))
      (grammar .embedded depth)

/-- Statements in braces. -/
def block (grammar : Grammar) (depth : Nat) : Production :=
  Grammar.nested depth fun depth =>
    node .block (braced (orRecover (statement grammar depth)))

/-- A condition in parentheses. -/
def condition (grammar : Grammar) (depth : Nat) : Production :=
  expect "(" >=> expressionExt grammar depth >=> expect ")"

/-- A conditional statement. -/
def ifStatement (grammar : Grammar) (depth : Nat) : Production :=
  expect "if" >=>
  condition grammar depth >=>
  grammar .embedded depth >=>
  whenAt "else" (node .elseClause (bump >=> grammar .embedded depth))

/-- Labels with the statements behind them, those of a label that falls through included. -/
def switchSection (grammar : Grammar) (depth : Nat) : Production :=
  node .switchSection <|
    whileAhead Lookahead.isSwitchLabel
      (node .switchLabel
        (ifAt "case" (bump >=> grammar (.expression 0) depth) bump >=> expect ":")) >=>
    whileAhead
      (fun rest =>
        !rest.isEmpty && !Lookahead.isAt rest 0 "\x7d" && !Lookahead.isSwitchLabel rest)
      (orRecover (statement grammar depth))

/-- A choice among labels. -/
def switchStatement (grammar : Grammar) (depth : Nat) : Production :=
  expect "switch" >=>
  condition grammar depth >=>
  node .switchBlock
    (braced (ifAhead Lookahead.isSwitchLabel (switchSection grammar depth) recover))

/-- A loop with its condition first. -/
def whileStatement (grammar : Grammar) (depth : Nat) : Production :=
  expect "while" >=> condition grammar depth >=> grammar .embedded depth

/-- A loop with its condition last. -/
def doStatement (grammar : Grammar) (depth : Nat) : Production :=
  expect "do" >=>
  grammar .embedded depth >=>
  expect "while" >=>
  condition grammar depth >=>
  expect ";"

/-- A counting loop. -/
def forStatement (grammar : Grammar) (depth : Nat) : Production :=
  expect "for" >=>
  expect "(" >=>
  unlessAt ";"
    (node .forInitializer
      (orElse (variableDeclaration grammar depth >=> guard (Lookahead.isAt · 0 ";"))
        (expressionExt grammar depth))) >=>
  expect ";" >=>
  unlessAt ";" (expressionExt grammar depth) >=>
  expect ";" >=>
  unlessAt ")" (expressionExt grammar depth) >=>
  expect ")" >=>
  grammar .embedded depth

/-- A statement that attributes may stand before. -/
def attributableStatement? (grammar : Grammar) (depth : Nat) (word : String) :
    Option Production :=
  if word = "if" then some (ifStatement grammar depth)
  else if word = "switch" then some (switchStatement grammar depth)
  else if word = "while" then some (whileStatement grammar depth)
  else if word = "do" then some (doStatement grammar depth)
  else if word = "for" then some (forStatement grammar depth)
  else none

/-- A statement that no attributes may stand before. -/
def plainStatement (grammar : Grammar) (depth : Nat) (word : String) : Production :=
  if ["break", "continue", "discard"].contains word then bump >=> expect ";"
  else if word = "return" then
    bump >=> unlessAt ";" (expressionExt grammar depth) >=> expect ";"
  else if ["typealias", "typedef"].contains word then typeAlias grammar depth
  else
    ifAhead Lookahead.isCompilerExtension (compilerExtension grammar depth)
      (expressionExt grammar depth >=> expect ";")

/-- A statement by its first word, with attributes before it or without. -/
def statementOf (grammar : Grammar) (depth : Nat) (attributed : Bool) (word : String) :
    Production :=
  match attributableStatement? grammar depth word with
  | some production => production
  | none => if attributed then fail else plainStatement grammar depth word

/-- A statement that is no block, with its attributes. -/
def attributedStatement (grammar : Grammar) (depth : Nat) (attributed : Bool) : Production :=
  whileAt "[" attributeSpecifier >=> choose fun rest =>
    statementOf grammar depth attributed (Lookahead.text rest 0)

/-- A statement that may stand alone behind a condition. -/
def embedded (grammar : Grammar) (depth : Nat) : Production :=
  Grammar.nested depth fun depth =>
    node .embeddedStatement <|
      ifAt ";" bump <|
      ifAt "\x7b" (grammar .block depth) <|
      choose fun rest => attributedStatement grammar depth (Lookahead.isAt rest 0 "[")

end Production

end Azsl
