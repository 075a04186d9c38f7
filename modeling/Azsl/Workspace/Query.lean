/-
Azsl.Workspace.Query — what an editor asks about documents.
-/
import Azsl.Workspace.Basic

namespace Azsl

namespace Workspace

/-- The function with a name that a document sees: its own, or else that of the first of its
includes that has one. Includes of includes are not seen. -/
def findFunction? (workspace : Workspace) (uri : Uri) (name : String) :
    Option (Uri × FunctionSymbol) :=
  match workspace.get? uri with
  | none => none
  | some document =>
    match document.functions.get? name with
    | some function => some (document.uri, function)
    | none =>
      document.includes.findSome? fun target =>
        match workspace.get? target with
        | none => none
        | some included => (included.functions.get? name).map (included.uri, ·)

/-- The function called at a position. -/
def calledAt? (workspace : Workspace) (uri : Uri) (position : Position) :
    Option (Uri × FunctionSymbol) :=
  match workspace.get? uri with
  | none => none
  | some document =>
    (Symbols.callAt? document.text document.tree position).bind (workspace.findFunction? uri)

/-- Where the function called at a position is declared. -/
def definition? (workspace : Workspace) (uri : Uri) (position : Position) :
    Option (Uri × Position) :=
  (workspace.calledAt? uri position).map fun (owner, function) => (owner, function.range.start)

/-- The comment and the signature of the function called at a position. -/
def hover? (workspace : Workspace) (uri : Uri) (position : Position) : Option String :=
  (workspace.calledAt? uri position).map (·.2.hoverText)

/-- The errors of a document. -/
def diagnostics (workspace : Workspace) (uri : Uri) : List Diagnostic :=
  match workspace.get? uri with
  | none => []
  | some document => Symbols.diagnostics document.text document.tree

/-- The functions of a document in the order of their starts. -/
def functions (workspace : Workspace) (uri : Uri) : List FunctionSymbol :=
  match workspace.get? uri with
  | none => []
  | some document => document.functions.inOrder

end Workspace

end Azsl
