/-
Azsl.Symbol.Collect — the functions, includes and errors of a syntax tree.

All of it is found by the shape of the tree alone. Nothing inside an error counts, and the
lists keep the order of the source.
-/
import Azsl.Syntax.Focus
import Azsl.Text.Source

namespace Azsl

/-- A function declared or defined in a document. -/
structure FunctionSymbol where
  name : String
  /-- The source of the signature, without the body. -/
  text : String
  /-- The comment right before the declaration. -/
  comment : Option String
  /-- Where the signature stands. -/
  range : Range
deriving DecidableEq, Repr

namespace FunctionSymbol

/-- What an editor shows: the comment, if there is one, above the signature. -/
def hoverText (function : FunctionSymbol) : String :=
  match function.comment with
  | some comment => comment ++ "\n" ++ function.text
  | none => function.text

end FunctionSymbol

/-- An include as it is written in a document. -/
structure IncludeSymbol where
  path : String
  range : Range
deriving DecidableEq, Repr

/-- Everything collected from one tree, in the order of the source. -/
structure Symbols where
  functions : List FunctionSymbol
  includes : List IncludeSymbol
deriving DecidableEq, Repr

/-- How serious a diagnostic is. -/
inductive Severity where
  | warning
deriving DecidableEq, Repr

/-- A remark on a stretch of a document. -/
structure Diagnostic where
  severity : Severity
  message : String
  range : Range
deriving DecidableEq, Repr

namespace Symbols

/-- The source of a node; empty if its bounds are not in the text. -/
def sourceOf (text : SourceText) (node : Node) : String :=
  String.ofList (text.slice node.start.byte node.stop.byte)

/-- Where a node stands, as editors count. -/
def rangeOf (text : SourceText) (node : Node) : Range :=
  text.rangeOf node.start.byte node.stop.byte

/-! ## Functions -/

/-- The nodes that wrap a member of a type or of a resource group. -/
def isMember : NodeKind → Bool
  | .srgMemberDeclaration | .classMemberDeclaration | .structMemberDeclaration
  | .interfaceMemberDeclaration => true
  | _ => false

/-- The outermost node around a signature that holds nothing but its function. -/
def wholeFunction? (signature : Focus) : Option Focus :=
  match signature.parent.bind Focus.parent with
  | none => none
  | some function =>
    match function.parent with
    | some member => some (if isMember member.kind then member else function)
    | none => some function

/-- The comment right before the function of a signature. -/
def comment? (text : SourceText) (signature : Focus) : Option String :=
  match (wholeFunction? signature).bind Focus.previousNamed with
  | some previous =>
    if previous.kind = .comment then some (sourceOf text previous.node) else none
  | none => none

/-- The function of a signature, named by the first identifier in it. -/
def function? (text : SourceText) (signature : Focus) : Option FunctionSymbol :=
  (signature.node.descendants.find? (·.kind == .identifier)).map fun name =>
    { name := sourceOf text name
      text := sourceOf text signature.node
      comment := comment? text signature
      range := rangeOf text signature.node }

/-- The functions of a tree. -/
def functionsOf (text : SourceText) (tree : SyntaxTree) : List FunctionSymbol :=
  ((Focus.ofRoot tree.root).ofKind .leadingTypeFunctionSignature).filterMap (function? text)

/-! ## Includes and errors -/

/-- The includes of a tree; an empty path is none. -/
def includesOf (text : SourceText) (tree : SyntaxTree) : List IncludeSymbol :=
  (tree.root.visible.filter (·.kind == .includeFile)).filterMap fun file =>
    let path := sourceOf text file
    if path.isEmpty then none else some ⟨path, rangeOf text file⟩

/-- The functions and includes of a tree. -/
def collect (text : SourceText) (tree : SyntaxTree) : Symbols :=
  ⟨functionsOf text tree, includesOf text tree⟩

/-- What is said about source that could not be parsed. -/
def parseErrorMessage : String :=
  "Failed to parse this code. Some symbols might be missing from providers."

/-- One warning for every outermost error. -/
def diagnostics (text : SourceText) (tree : SyntaxTree) : List Diagnostic :=
  tree.root.errors.map fun error => ⟨.warning, parseErrorMessage, rangeOf text error⟩

/-! ## Calls -/

/-- Whether arguments come right after the expression that these frames lead up to: out of the
qualified name to the expression, and behind it the first sibling that is neither a token nor
an extra. -/
def calledIn : List Frame → Bool
  | [] => false
  | frame :: outer =>
    if frame.label.kind = .idExpression then calledIn outer
    else if frame.label.kind = .expression then
      match outer with
      | [] => false
      | around :: _ =>
        (around.after.find? (fun node => node.kind.isNamed && !node.kind.isExtra)).any
          (·.kind == .argumentList)
    else false

/-- Whether a node is the name of a function that is called. -/
def isCall (focus : Focus) : Bool :=
  focus.kind == .identifier && calledIn focus.frames

/-- The name of the function called at a position. -/
def callAt? (text : SourceText) (tree : SyntaxTree) (position : Position) : Option String :=
  let point := text.pointAt (text.offsetAt position)
  let found := (Focus.ofRoot tree.root).namedAt point point
  if isCall found then some (sourceOf text found.node) else none

end Symbols

/-- The functions of a document by name. -/
structure FunctionTable where
  functions : List FunctionSymbol
deriving DecidableEq, Repr

namespace FunctionTable

/-- A table without functions. -/
def empty : FunctionTable := ⟨[]⟩

/-- Add a function in place of one with the same name. -/
def insert (table : FunctionTable) (function : FunctionSymbol) : FunctionTable :=
  ⟨table.functions.filter (·.name ≠ function.name) ++ [function]⟩

/-- The table of some functions; of several with one name the last stays. -/
def ofList (functions : List FunctionSymbol) : FunctionTable :=
  functions.foldl insert empty

/-- The function with a name. -/
def get? (table : FunctionTable) (name : String) : Option FunctionSymbol :=
  table.functions.find? (·.name == name)

/-- Number of functions. -/
def size (table : FunctionTable) : Nat :=
  table.functions.length

/-- The functions in the order of their starts. -/
def inOrder (table : FunctionTable) : List FunctionSymbol :=
  table.functions.mergeSort fun a b => decide (a.range.start ≤ b.range.start)

end FunctionTable

end Azsl
