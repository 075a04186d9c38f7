/-
Azsl.Grammar.Expression — expressions by precedence climbing.

An operator binds with a power: the higher, the tighter. Binary operators group to the left,
assignment and the conditional to the right. A node is wrapped around an operand once the
operator behind it is seen.
-/
import Azsl.Grammar.Numeric
import Azsl.Grammar.Rule

namespace Azsl

/-- What an operator behind an operand does. -/
inductive Infix where
  | assignment
  | conditional
  | binary (power : Nat)
deriving DecidableEq, Repr

namespace Infix

/-- Binary operators with their powers. -/
def binaryPowers : List (String × Nat) :=
  [("||", 3), ("&&", 4), ("|", 5), ("^", 6), ("&", 7), ("==", 8), ("!=", 8), ("<", 9), (">", 9),
   ("<=", 9), (">=", 9), ("<<", 10), (">>", 10), ("+", 11), ("-", 11), ("*", 12), ("/", 12),
   ("%", 12)]

/-- Assignment operators. -/
def assignments : List String :=
  ["=", "*=", "/=", "%=", "+=", "-=", "<<=", ">>=", "&=", "^=", "|="]

/-- The power of assignment. -/
def assignmentPower : Nat := 1

/-- The power of the conditional. -/
def conditionalPower : Nat := 2

/-- How tightly an operator binds. -/
def power : Infix → Nat
  | assignment => assignmentPower
  | conditional => conditionalPower
  | binary power => power

/-- The operator with a spelling. -/
def ofText? (text : String) : Option Infix :=
  if text = "?" then some .conditional
  else if assignments.contains text then some .assignment
  else (binaryPowers.lookup text).map .binary

/-- The operator at the front of the input and how many further tokens it is made of: a `>`
joins the `>` and the `=` that touch it. -/
def ahead? (rest : List Lexeme) : Option (Infix × Nat) :=
  if Lookahead.kind? rest 0 == some .punct then
    let text := Lookahead.text rest 0
    if text = ">" then
      let twice := Lookahead.adjacent rest 0 && Lookahead.isAt rest 1 ">"
      let more := if twice then 1 else 0
      let assigned := Lookahead.adjacent rest more && Lookahead.isAt rest (more + 1) "="
      let text := (if twice then ">>" else ">") ++ (if assigned then "=" else "")
      (ofText? text).map (·, if assigned then more + 1 else more)
    else (ofText? text).map (·, 0)
  else none

/-- Whether an operator of at least the given power is next. -/
def binds (minPower : Nat) (rest : List Lexeme) : Bool :=
  (ahead? rest).any (minPower ≤ ·.1.power)

end Infix

namespace Production

/-! ## Lists -/

/-- Expressions with commas in between, nested to the left. -/
def expressionExt (grammar : Grammar) (depth : Nat) : Production :=
  inScope <|
    node .expressionExt (grammar (.expression 0) depth) >=>
    whileAt ","
      (enclose .expressionExt (bump >=> node .expressionExt (grammar (.expression 0) depth)))

/-- The arguments of a call. -/
def argumentList (grammar : Grammar) (depth : Nat) : Production :=
  node .argumentList <|
    expect "(" >=>
    unlessAt ")" (commaSeparated (grammar (.expression 0) depth)) >=>
    expect ")"

/-- The size of an array, which may be left open. -/
def arrayRank (grammar : Grammar) (depth : Nat) : Production :=
  node .arrayRankSpecifier <|
    expect "[" >=> unlessAt "]" (grammar (.expression 0) depth) >=> expect "]"

/-! ## Operands -/

/-- An operand without operators. -/
def primary (grammar : Grammar) (depth : Nat) : Production :=
  ifAhead Lookahead.isLiteral (node .expression literal) <|
  ifAt "(" (node .expression (bump >=> expressionExt grammar depth >=> expect ")")) <|
  ifAhead Lookahead.isConstructor
    (node .expression (numericType >=> argumentList grammar depth)) <|
  ifAhead (fun rest => Lookahead.isName rest 0 || Lookahead.isAt rest 0 "::")
    (node .expression idExpression) fail

/-- The operators behind an operand that bind tightest: member access, indexing, calls and
steps. -/
def postfixes (grammar : Grammar) (depth : Nat) : Production :=
  whileAhead (Lookahead.isAny · [".", "[", "(", "++", "--"]) <|
    enclose .expression <|
      ifAt "." (bump >=> idExpression) <|
      ifAt "[" (bump >=> grammar (.expression 0) depth >=> expect "]") <|
      ifAt "(" (argumentList grammar depth) <|
      tokenNode .postfixUnaryOperator

/-- A cast behind its opening parenthesis, to a type that is built in or is not. -/
def castTo (grammar : Grammar) (depth : Nat) (predefined : Bool) : Production :=
  grammar .type depth >=>
  whileAt "[" (arrayRank grammar depth) >=>
  expect ")" >=>
  guard (fun rest => predefined || Lookahead.isOperandStart rest) >=>
  grammar .unary depth

/-- A cast. A type of the program's own makes one only if an operand follows, so that
`(a) - b` stays a difference. -/
def cast (grammar : Grammar) (depth : Nat) : Production :=
  node .expression <|
    bump >=> choose fun rest => castTo grammar depth (Lookahead.isPredefinedType rest)

/-- An operand with the operators before and behind it. -/
def unary (grammar : Grammar) (depth : Nat) : Production :=
  Grammar.nested depth fun depth =>
    let operand := inScope (primary grammar depth >=> postfixes grammar depth)
    ifAhead (Lookahead.isAny · ["+", "-", "!", "~", "++", "--"])
      (node .expression (tokenNode .prefixUnaryOperator >=> grammar .unary depth)) <|
    ifAt "(" (orElse (cast grammar depth) operand) operand

/-! ## Operators -/

/-- What follows an operand: an operator, given with the number of its further tokens, and its
other operands. -/
def infixTail (grammar : Grammar) (depth : Nat) (more : Nat) : Infix → Production
  | .assignment =>
    node .assignmentOperator (bumpJoined more .token) >=>
    node .expressionExt (grammar (.expression Infix.assignmentPower) depth)
  | .conditional =>
    bump >=>
    expressionExt grammar depth >=>
    expect ":" >=>
    node .expressionExt (grammar (.expression Infix.conditionalPower) depth)
  | .binary power =>
    node .binaryOperator (bumpJoined more .token) >=>
    grammar (.expression (power + 1)) depth

/-- What follows an operand if an operator does. -/
def infixOf (grammar : Grammar) (depth : Nat) : Option (Infix × Nat) → Production
  | some (operator, more) => infixTail grammar depth more operator
  | none => fail

/-- The operator that is next, and its other operands. -/
def infixNext (grammar : Grammar) (depth : Nat) : Production :=
  choose fun rest => infixOf grammar depth (Infix.ahead? rest)

/-- An expression whose operators all have at least the given power. -/
def expression (grammar : Grammar) (minPower depth : Nat) : Production :=
  inScope <|
    grammar .unary depth >=>
    whileAhead (Infix.binds minPower) (enclose .expression (infixNext grammar depth))

end Production

end Azsl
