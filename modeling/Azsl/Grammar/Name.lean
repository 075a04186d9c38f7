/-
Azsl.Grammar.Name — names, literals and attributes: the productions that do not recurse.
-/
import Azsl.Grammar.Production

namespace Azsl

namespace Production

/-! ## Names -/

/-- A name. -/
def identifier : Production :=
  guard (Lookahead.isName · 0) >=> bumpAs .identifier

/-- Further names of a qualified name, each behind `::`. -/
def furtherNames : Nat → Production
  | 0 => .ok
  | n + 1 => expect "::" >=> identifier >=> furtherNames n

/-- The first `count` names of a qualified name. -/
def qualifiedName : Nat → Production
  | 0 => fail
  | n + 1 => node .idExpression (optional "::" >=> identifier >=> furtherNames n)

/-- A whole qualified name. -/
def idExpression : Production :=
  choose fun rest => qualifiedName (Lookahead.qualifiedLength rest)

/-! ## Literals -/

/-- Leaves for the escape sequences among characters that start at `here`. -/
def escapes (here : Location) : List Char → List Node
  | '\\' :: c :: rest =>
    let stop := (here.step '\\').step c
    .leaf .escapeSequence here stop :: escapes stop rest
  | c :: rest => escapes (here.step c) rest
  | [] => []

/-- The parts of a string: its quotes and the escape sequences between them. -/
def stringParts (token : Token) : List Node :=
  let opened := token.start.step '"'
  let inner := (token.text.toList.drop 1).dropLast
  let closing := opened.advance inner
  .leaf .token token.start opened :: escapes opened inner ++ [.leaf .token closing token.stop]

/-- A string, split into its quotes and escape sequences. -/
def stringLiteral : Production := fun state =>
  match Lookahead.token? state.rest 0 with
  | some token =>
    if token.kind = .stringLiteral then
      let outer := state.flush
      .ok (outer.close .stringLiteral
        { outer with built := (stringParts token).reverse, rest := outer.rest.drop 1 })
    else .error .mismatch
  | none => .error .mismatch

/-- A whole number. -/
def integerLiteral : Production :=
  guard (Lookahead.kind? · 0 == some .integerLiteral) >=> bumpAs .integerLiteral

/-- A literal by the kind of its token. -/
def literalOf : Option TokenKind → Production
  | some .integerLiteral => bumpAs .integerLiteral
  | some .floatLiteral => bumpAs .floatLiteral
  | some .stringLiteral => stringLiteral
  | _ => guard (Lookahead.isAny · ["true", "false"]) >=> bump

/-- A literal of any kind. -/
def literal : Production :=
  node .literal (choose fun rest => literalOf (Lookahead.kind? rest 0))

/-! ## Attributes -/

/-- One argument of an attribute. -/
def attributeArgument : Production :=
  node .attributeArguments (ifAhead Lookahead.isLiteral literal idExpression)

/-- The arguments of an attribute. The comma between two of them may be left out, and one may
stand behind the last before a further argument only. -/
def attributeArgumentList : Production :=
  node .attributeArgumentList <|
    expect "(" >=>
    attributeArgument >=>
    whileAhead (fun rest => !Lookahead.isAt rest 0 ")") (optional "," >=> attributeArgument) >=>
    expect ")"

/-- An attribute without its brackets. -/
def attributeItem : Production :=
  node .attributeName <|
    whenAhead (fun rest => Lookahead.isAt rest 0 "global" && Lookahead.isAt rest 1 "::")
      (bump >=> expect "::") >=>
    identifier >=>
    whenAt "::" (bump >=> identifier) >=>
    whenAt "(" attributeArgumentList

/-- An attribute in single brackets. -/
def attributeSpecifier : Production :=
  node .attributeSpecifier (expect "[" >=> attributeItem >=> expect "]")

/-- Attributes in double brackets. -/
def attributeSequence : Production :=
  node .attributeSpecifierSequence <|
    guard Lookahead.isAttributeSequence >=>
    bumpJoined 1 .token >=>
    commaSeparated attributeItem >=>
    guard (fun rest =>
      Lookahead.isAt rest 0 "]" && Lookahead.isAt rest 1 "]" && Lookahead.adjacent rest 0) >=>
    bumpJoined 1 .token

/-- An attribute in single brackets or attributes in double ones. -/
def anyAttribute : Production :=
  node .attributeSpecifierAny
    (ifAhead Lookahead.isAttributeSequence attributeSequence attributeSpecifier)

/-- Any number of attributes. -/
def attributes : Production :=
  whileAt "[" anyAttribute

end Production

end Azsl
