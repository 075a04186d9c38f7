/-
Azsl.Workspace.Basic — documents and the includes that wait for one.

A workspace carries the order of its documents with it: whatever changes the list of documents
says why it stays in order. A pending include is the text of an include with the documents that
wait for it, in the order in which they began to wait.
-/
import Azsl.Include
import Azsl.Workspace.Document
import Azsl.Workspace.Settings

namespace Azsl

/-- Documents that wait for an include. -/
structure Pending where
  path : String
  owners : List Uri
deriving DecidableEq, Repr

/-- All documents with what connects them. -/
@[ext]
structure Workspace where
  settings : Settings
  documents : List Document
  sorted : Workspace.Sorted documents
  pending : List Pending
  /-- Includes that are not below the include roots, as far as known. -/
  missing : List String

namespace Workspace

/-- A workspace without documents. -/
def empty (settings : Settings) : Workspace := ⟨settings, [], .nil, [], []⟩

/-! ## Documents -/

/-- The document with an identifier. -/
def get? (workspace : Workspace) (uri : Uri) : Option Document :=
  workspace.documents.find? (·.uri == uri)

/-- Whether there is a document with an identifier. -/
def contains (workspace : Workspace) (uri : Uri) : Bool :=
  (workspace.get? uri).isSome

/-- Put a document into the workspace, in place of one with the same identifier. -/
def put (workspace : Workspace) (document : Document) : Workspace :=
  { workspace with
    documents := insertOrdered document workspace.documents
    sorted := sorted_insertOrdered workspace.sorted document }

/-- Change documents, but not their identifiers. -/
def mapDocuments (workspace : Workspace) (f : Document → Document)
    (hf : ∀ document, (f document).uri = document.uri) : Workspace :=
  { workspace with
    documents := workspace.documents.map f
    sorted := workspace.sorted.map hf }

/-- Give a document new functions and includes if it is there. -/
def renew (workspace : Workspace) (uri : Uri) (functions : FunctionTable) (includes : List Uri) :
    Workspace :=
  workspace.mapDocuments
    (fun document =>
      if document.uri = uri then { document with functions := functions, includes := includes }
      else document)
    fun document => by split <;> rfl

/-- Remove a document. -/
def erase (workspace : Workspace) (uri : Uri) : Workspace :=
  { workspace with
    documents := workspace.documents.filter (·.uri ≠ uri)
    sorted := workspace.sorted.sublist List.filter_sublist }

/-- Give a document a text and the tree of that text. Its symbols stay until it is analysed. -/
def load (workspace : Workspace) (uri : Uri) (version : Option Int) (chars : List Char) :
    Workspace :=
  let old := workspace.get? uri
  workspace.put
    { uri := uri
      version := version
      text := .ofChars chars
      tree := parse chars none
      functions := (old.map (·.functions)).getD .empty
      includes := (old.map (·.includes)).getD [] }

/-! ## Pending includes -/

/-- A document waits for nothing any more. -/
def withdraw (workspace : Workspace) (uri : Uri) : Workspace :=
  { workspace with
    pending := (workspace.pending.map fun entry =>
        { entry with owners := entry.owners.filter (· ≠ uri) }).filter (!·.owners.isEmpty) }

/-- A document begins to wait for an include, unless it waits for it already. -/
def await (workspace : Workspace) (path : String) (uri : Uri) : Workspace :=
  if workspace.pending.any (·.path == path) then
    { workspace with
      pending := workspace.pending.map fun entry =>
        if entry.path = path ∧ !entry.owners.contains uri then
          { entry with owners := entry.owners ++ [uri] }
        else entry }
  else { workspace with pending := workspace.pending ++ [⟨path, [uri]⟩] }

/-- Give a document to all that wait for an include that it matches, if the settings let it. -/
def deliver (workspace : Workspace) (uri : Uri) : Workspace :=
  if workspace.settings.mayResolve uri then
    let matched := workspace.pending.filter (Include.isMatch uri ·.path)
    let owners := matched.flatMap (·.owners)
    let rest : Workspace :=
      { workspace with pending := workspace.pending.filter (!Include.isMatch uri ·.path) }
    rest.mapDocuments
      (fun document => if owners.contains document.uri then document.addInclude uri else document)
      fun document => by split <;> simp
  else workspace

/-! ## Settings -/

/-- Change the settings. What is below the new include roots is not known yet. -/
def configure (workspace : Workspace) (settings : Settings) : Workspace :=
  { workspace with settings := settings, missing := [] }

/-- Forget everything but the settings. -/
def reset (workspace : Workspace) : Workspace :=
  empty workspace.settings

end Workspace

end Azsl
