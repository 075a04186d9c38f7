/-
Azsl.Proofs.Expression.Tree — expressions as terms, how they are written, and how they are read
off a syntax tree.

A term knows its operators and operands and nothing of parentheses. `Expr.words` writes it out
with as few of them as the precedence of its operators allows, `Expr.read` finds the term that a
node of a syntax tree stands for, and passes over parentheses.
-/
import Azsl.Grammar.Rule
import Azsl.Proofs.Token.Spaced
import Azsl.Symbol.Collect

namespace Azsl

/-! ## Atoms -/

/-- A word that can stand for a name. -/
structure Identifier where
  text : String
  word : Scan.nextToken text.toList = (.word, text.toList.length)
  unreserved : Keyword.isReserved text = false
deriving DecidableEq, Repr

/-- A whole number or a fraction. -/
structure Numeral where
  text : String
  literal : Scan.nextToken text.toList = (.integerLiteral, text.toList.length) ∨
    Scan.nextToken text.toList = (.floatLiteral, text.toList.length)
deriving DecidableEq, Repr

namespace Identifier

/-- The identifier with a spelling, if that is one. -/
def ofText? (text : String) : Option Identifier :=
  if word : Scan.nextToken text.toList = (.word, text.toList.length) then
    if unreserved : Keyword.isReserved text = false then some ⟨text, word, unreserved⟩ else none
  else none

theorem ofText?_text (name : Identifier) : ofText? name.text = some name := by
  simp [ofText?, name.word, name.unreserved]

end Identifier

namespace Numeral

/-- The number with a spelling, if that is one. -/
def ofText? (text : String) : Option Numeral :=
  if literal : Scan.nextToken text.toList = (.integerLiteral, text.toList.length) ∨
      Scan.nextToken text.toList = (.floatLiteral, text.toList.length) then
    some ⟨text, literal⟩
  else none

theorem ofText?_text (number : Numeral) : ofText? number.text = some number := by
  simp [ofText?, number.literal]

end Numeral

/-! ## Operators -/

/-- One of some spellings. -/
def Spelling (texts : List String) : Type := { text : String // text ∈ texts }

namespace Spelling

variable {texts : List String}

instance : DecidableEq (Spelling texts) := inferInstanceAs (DecidableEq { text // text ∈ texts })
instance : Repr (Spelling texts) := inferInstanceAs (Repr { text // text ∈ texts })

/-- The text itself. -/
def text (spelling : Spelling texts) : String := spelling.val

/-- The spelling of a text, if it is among them. -/
def ofText? (texts : List String) (text : String) : Option (Spelling texts) :=
  if h : text ∈ texts then some ⟨text, h⟩ else none

theorem ofText?_text (spelling : Spelling texts) : ofText? texts spelling.text = some spelling := by
  obtain ⟨text, h⟩ := spelling
  exact dif_pos h

end Spelling

namespace Expr

/-- Binary operators by precedence, from those that bind loosest on. -/
def binaryRows : List (List String) :=
  [["||"], ["&&"], ["|"], ["^"], ["&"], ["==", "!="], ["<", ">", "<=", ">="], ["<<", ">>"],
   ["+", "-"], ["*", "/", "%"]]

/-- A binary operator. -/
abbrev Binary : Type := Spelling binaryRows.flatten

/-- An assignment operator. -/
abbrev Assign : Type :=
  Spelling ["=", "*=", "/=", "%=", "+=", "-=", "<<=", ">>=", "&=", "^=", "|="]

/-- An operator before its operand. -/
abbrev Sign : Type := Spelling ["+", "-", "!", "~", "++", "--"]

/-- An operator behind its operand. -/
abbrev Step : Type := Spelling ["++", "--"]

/-! ## Levels

The precedence of each form: assignments bind loosest, then conditionals, the binary operators
row by row, what stands before an operand, and what stands behind it. -/

/-- The level of assignments. -/
def assignmentLevel : Nat := 1

/-- The level of conditionals. -/
def conditionalLevel : Nat := 2

/-- The level of a binary operator: that of its row, above the conditional. -/
def Binary.level (operator : Binary) : Nat :=
  conditionalLevel + 1 + binaryRows.findIdx (·.contains operator.text)

/-- The level of operators before an operand. -/
def signLevel : Nat := conditionalLevel + 1 + binaryRows.length

/-- The level of what stands behind an operand. -/
def suffixLevel : Nat := signLevel + 1

/-- The level of names and numbers. -/
def atomLevel : Nat := suffixLevel + 1

end Expr

/-! ## Terms -/

/-- An expression without its parentheses. -/
inductive Expr where
  | name (identifier : Identifier)
  | number (numeral : Numeral)
  | member (owner : Expr) (field : Identifier)
  | index (array position : Expr)
  | call (function : Expr) (arguments : List Expr)
  | stepped (operand : Expr) (operator : Expr.Step)
  | signed (operator : Expr.Sign) (operand : Expr)
  | binary (operator : Expr.Binary) (left right : Expr)
  | conditional (condition yes no : Expr)
  | assignment (operator : Expr.Assign) (target value : Expr)
deriving Repr

namespace Expr

/-- Induction over an expression, with the arguments of a call among its parts. -/
theorem rec_parts {motive : Expr → Prop}
    (name : ∀ identifier, motive (.name identifier))
    (number : ∀ numeral, motive (.number numeral))
    (member : ∀ owner field, motive owner → motive (.member owner field))
    (index : ∀ array position, motive array → motive position → motive (.index array position))
    (call : ∀ function arguments, motive function → (∀ argument ∈ arguments, motive argument) →
      motive (.call function arguments))
    (stepped : ∀ operand operator, motive operand → motive (.stepped operand operator))
    (signed : ∀ operator operand, motive operand → motive (.signed operator operand))
    (binary : ∀ operator left right, motive left → motive right →
      motive (.binary operator left right))
    (conditional : ∀ condition yes no, motive condition → motive yes → motive no →
      motive (.conditional condition yes no))
    (assignment : ∀ operator target value, motive target → motive value →
      motive (.assignment operator target value)) (e : Expr) : motive e :=
  @Expr.rec motive (fun arguments => ∀ argument ∈ arguments, motive argument)
    name number member index call stepped signed binary conditional assignment
    (fun _ hmem => absurd hmem (by simp))
    (fun _ _ hfirst hrest argument hmem => by
      rcases List.mem_cons.mp hmem with rfl | hmem
      · exact hfirst
      · exact hrest argument hmem) e

/-- How tightly the outermost operator binds. -/
def level : Expr → Nat
  | .name _ | .number _ => atomLevel
  | .member _ _ | .index _ _ | .call _ _ | .stepped _ _ => suffixLevel
  | .signed _ _ => signLevel
  | .binary operator _ _ => operator.level
  | .conditional _ _ _ => conditionalLevel
  | .assignment _ _ _ => assignmentLevel

/-! ## Writing -/

/-- An operand in words: in parentheses if it binds less tightly than it has to. -/
def enclosed (least level : Nat) (words : List String) : List String :=
  if level < least then "(" :: (words ++ [")"]) else words

mutual

/-- An expression in words. Binary operators group to the left, assignments and conditionals to
the right. -/
def words : Expr → List String
  | .name identifier => [identifier.text]
  | .number numeral => [numeral.text]
  | .member owner field => enclosed suffixLevel owner.level owner.words ++ [".", field.text]
  | .index array position =>
    enclosed suffixLevel array.level array.words ++ "[" :: (position.words ++ ["]"])
  | .call function arguments =>
    enclosed suffixLevel function.level function.words ++ "(" :: (wordsAll arguments ++ [")"])
  | .stepped operand operator =>
    enclosed suffixLevel operand.level operand.words ++ [operator.text]
  | .signed operator operand => operator.text :: enclosed signLevel operand.level operand.words
  | .binary operator left right =>
    enclosed operator.level left.level left.words ++
      operator.text :: enclosed (operator.level + 1) right.level right.words
  | .conditional condition yes no =>
    enclosed (conditionalLevel + 1) condition.level condition.words ++
      "?" :: (yes.words ++ ":" :: enclosed conditionalLevel no.level no.words)
  | .assignment operator target value =>
    enclosed (assignmentLevel + 1) target.level target.words ++
      operator.text :: enclosed assignmentLevel value.level value.words

/-- Arguments in words, with commas in between. -/
def wordsAll : List Expr → List String
  | [] => []
  | [argument] => argument.words
  | argument :: others => argument.words ++ "," :: wordsAll others

end

/-- The text of a variable with the expression as its initial value. -/
def declaration (e : Expr) : List Char :=
  spaced ("float" :: "v" :: "=" :: e.words) ++ [';']

/-! ## Nesting -/

/-- The nesting of an operand: parentheses are one level. -/
def enclosedNesting (least level nesting : Nat) : Nat :=
  if level < least then nesting + 1 else nesting

mutual

/-- How many levels of operands an expression has. The operand of an operator before it, what
stands in parentheses or brackets and the arguments of a call are one level deeper than the
operand they belong to. -/
def nesting : Expr → Nat
  | .name _ | .number _ => 1
  | .member owner _ => enclosedNesting suffixLevel owner.level owner.nesting
  | .index array position =>
    max (enclosedNesting suffixLevel array.level array.nesting) (position.nesting + 1)
  | .call function arguments =>
    max (enclosedNesting suffixLevel function.level function.nesting) (nestingAll arguments + 1)
  | .stepped operand _ => enclosedNesting suffixLevel operand.level operand.nesting
  | .signed _ operand => enclosedNesting signLevel operand.level operand.nesting + 1
  | .binary operator left right =>
    max (enclosedNesting operator.level left.level left.nesting)
      (enclosedNesting (operator.level + 1) right.level right.nesting)
  | .conditional condition yes no =>
    max (enclosedNesting (conditionalLevel + 1) condition.level condition.nesting)
      (max yes.nesting (enclosedNesting conditionalLevel no.level no.nesting))
  | .assignment _ target value =>
    max (enclosedNesting (assignmentLevel + 1) target.level target.nesting)
      (enclosedNesting assignmentLevel value.level value.nesting)

/-- The nesting of the deepest of some expressions. -/
def nestingAll : List Expr → Nat
  | [] => 0
  | argument :: others => max argument.nesting (nestingAll others)

end

/-! ## Reading -/

open Symbols (sourceOf)

mutual

/-- The expression a node of the tree of a text stands for. Lists of one expression and
parentheses stand for what is in them. -/
def read (text : SourceText) : Node → Option Expr
  | .mk label [only] =>
    match label.kind, only.kind with
    | .expressionExt, .expression => read text only
    | .expression, .idExpression => (Identifier.ofText? (sourceOf text only)).map name
    | .expression, .literal => (Numeral.ofText? (sourceOf text only)).map number
    | _, _ => none
  | .mk _ [first, .mk second inner] =>
    match first.kind, second.kind with
    | .prefixUnaryOperator, .expression =>
      (Spelling.ofText? _ (sourceOf text first)).bind fun operator =>
        (read text (.mk second inner)).map (signed operator)
    | .expression, .postfixUnaryOperator =>
      (read text first).bind fun operand =>
        (Spelling.ofText? _ (sourceOf text (.mk second inner))).map (stepped operand)
    | .expression, .argumentList =>
      (read text first).bind fun function => (readAll text inner).map (call function)
    | _, _ => none
  | .mk _ [first, second, third] =>
    match first.kind, second.kind, third.kind with
    | .token, .expressionExt, .token => read text second
    | .expression, .token, .idExpression =>
      (read text first).bind fun owner =>
        (Identifier.ofText? (sourceOf text third)).map (member owner)
    | .expression, .binaryOperator, .expression =>
      (Spelling.ofText? _ (sourceOf text second)).bind fun operator =>
        (read text first).bind fun left => (read text third).map (binary operator left)
    | .expression, .assignmentOperator, .expressionExt =>
      (Spelling.ofText? _ (sourceOf text second)).bind fun operator =>
        (read text first).bind fun target => (read text third).map (assignment operator target)
    | _, _, _ => none
  | .mk _ [first, second, third, fourth] =>
    match first.kind, second.kind, third.kind, fourth.kind with
    | .expression, .token, .expression, .token =>
      (read text first).bind fun array => (read text third).map (index array)
    | _, _, _, _ => none
  | .mk _ [first, second, third, fourth, fifth] =>
    match first.kind, second.kind, third.kind, fourth.kind, fifth.kind with
    | .expression, .token, .expressionExt, .token, .expressionExt =>
      (read text first).bind fun condition =>
        (read text third).bind fun yes => (read text fifth).map (conditional condition yes)
    | _, _, _, _, _ => none
  | _ => none

/-- The expressions among some nodes, if all of them can be read. -/
def readAll (text : SourceText) : List Node → Option (List Expr)
  | [] => some []
  | node :: others =>
    if node.kind = .expression then
      (read text node).bind fun argument => (readAll text others).map (argument :: ·)
    else readAll text others

end

/-- The expression that the first initial value in a tree is. -/
def initial? (text : SourceText) (root : Node) : Option Expr :=
  (root.descendants.find? (·.kind == .standardVariableInitializer)).bind fun initializer =>
    initializer.children.head?.bind (read text)

end Expr

end Azsl
