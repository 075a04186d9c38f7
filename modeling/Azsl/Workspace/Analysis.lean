/-
Azsl.Workspace.Analysis — finding the symbols of documents and what their includes mean.

Analysing a document renews its function table and its list of includes, and gives the document
to those that wait for it. Includes that mean no known document are looked for below the
include roots; a file that is found becomes a document and is analysed next, until nothing is
left or the settings' limit is reached. How an include is looked for is a parameter of the
algorithm (`searchAllM`, `analyzeQueueM`), so that a search may also write down what it does.
-/
import Azsl.Workspace.Basic

namespace Azsl

namespace Workspace

/-! ## One document -/

/-- The document that an include of a document means, as far as known. -/
def resolveInclude? (workspace : Workspace) (uri : Uri) (path : String) : Option Uri :=
  if Include.isRelative path then (Include.resolveRelative uri path).toOption
  else
    Include.findDocument? path ((workspace.documents.map (·.uri)).filter (· ≠ uri))

/-- Includes of a document that are found, and those that are not. -/
structure Resolution where
  found : List Uri
  unresolved : List String
deriving DecidableEq, Repr

/-- Look up includes one by one; what is found twice is listed once. -/
def resolveAll (workspace : Workspace) (uri : Uri) (includes : List IncludeSymbol) : Resolution :=
  includes.foldl
    (fun resolution symbol =>
      match workspace.resolveInclude? uri symbol.path with
      | some target =>
        if resolution.found.contains target then resolution
        else { resolution with found := resolution.found ++ [target] }
      | none => { resolution with unresolved := resolution.unresolved ++ [symbol.path] })
    ⟨[], []⟩

/-- Renew what is known about one document. Gives the includes that are still to be found. -/
def analyzeDocument (workspace : Workspace) (uri : Uri) : Workspace × List String :=
  let cleared := (workspace.withdraw uri).deliver uri
  match cleared.get? uri with
  | none => (cleared, [])
  | some document =>
    let symbols := Symbols.collect document.text document.tree
    let resolution := cleared.resolveAll uri symbols.includes
    let waiting := resolution.unresolved.foldl (fun w path => w.await path uri) cleared
    (waiting.renew uri (.ofList symbols.functions) resolution.found, resolution.unresolved)

/-! ## Documents from disk -/

/-- An analysis under way: documents still to be analysed and those analysed already, and how
many were loaded from disk. -/
structure Analysis where
  workspace : Workspace
  queue : List Uri
  visited : List Uri
  loaded : Nat

/-- Look for one include on disk; a new file becomes a document and joins the queue. -/
def search (system : FileSystem) (analysis : Analysis) (path : String) : Analysis :=
  let workspace := analysis.workspace
  if workspace.missing.contains path then analysis
  else
    match Include.findFile? system workspace.settings.includeRoots path with
    | none =>
      { analysis with workspace := { workspace with missing := path :: workspace.missing } }
    | some file =>
      match Include.read system file with
      | .error _ => analysis
      | .ok (uri, chars) =>
        if workspace.contains uri then analysis
        else
          { analysis with
            workspace := workspace.load uri none chars
            queue := analysis.queue ++ [uri]
            loaded := analysis.loaded + 1 }

section Looking

variable {m : Type → Type} [Monad m]

/-- Look for includes in some way until the limit is reached. -/
def searchAllM (look : Analysis → String → m Analysis) (analysis : Analysis) :
    List String → m Analysis
  | [] => pure analysis
  | path :: rest =>
    if analysis.workspace.settings.maxDiskIncludes ≤ analysis.loaded then pure analysis
    else do searchAllM look (← look analysis path) rest

/-- Analyse the documents of the queue, at most `fuel` of them, looking for the includes of each
in some way. -/
def analyzeQueueM (look : Uri → Analysis → String → m Analysis) : Nat → Analysis → m Workspace
  | 0, analysis => pure analysis.workspace
  | fuel + 1, analysis =>
    match analysis.queue with
    | [] => pure analysis.workspace
    | uri :: rest =>
      if analysis.visited.contains uri then
        analyzeQueueM look fuel { analysis with queue := rest }
      else do
        let (workspace, unresolved) := analysis.workspace.analyzeDocument uri
        let next : Analysis :=
          { analysis with workspace, queue := rest, visited := uri :: analysis.visited }
        if workspace.settings.includeRoots.isEmpty then analyzeQueueM look fuel next
        else analyzeQueueM look fuel (← searchAllM (look uri) next unresolved)

end Looking

/-- Look for includes on disk until the limit is reached. -/
def searchAll (system : FileSystem) (analysis : Analysis) (paths : List String) : Analysis :=
  Id.run (searchAllM (search system) analysis paths)

/-- Analyse the documents of the queue, at most `fuel` of them. -/
def analyzeQueue (system : FileSystem) (fuel : Nat) (analysis : Analysis) : Workspace :=
  Id.run (analyzeQueueM (fun _ => search system) fuel analysis)

/-- Analyse a document and those that its includes bring in from disk. No more join the queue
than the settings allow to be loaded, which bounds the number of steps. -/
def analyze (workspace : Workspace) (system : FileSystem) (uri : Uri) : Workspace :=
  analyzeQueue system (workspace.settings.maxDiskIncludes + 1) ⟨workspace, [uri], [], 0⟩

/-! ## What an editor does -/

/-- Open a document. Nothing happens if the editor has given the same version or a later one
before; a document read from disk is replaced in any case. -/
def openDocument (workspace : Workspace) (system : FileSystem) (uri : Uri) (version : Int)
    (chars : List Char) : Workspace × Bool :=
  if ((workspace.get? uri).bind (·.version)).any (version ≤ ·) then (workspace, false)
  else ((workspace.load uri (some version) chars).analyze system uri, true)

/-- Apply changes in order. A change of a part of a document that is not known takes the text
from disk instead, as what the editor shows by then, and the changes behind it are left out. -/
def applyChanges (system : FileSystem) (uri : Uri) (version : Int) :
    List Change → Workspace → Except DocumentError Workspace
  | [], workspace => .ok workspace
  | .full chars :: rest, workspace =>
    applyChanges system uri version rest (workspace.load uri (some version) chars)
  | .replace range chars :: rest, workspace =>
    match workspace.get? uri with
    | some document =>
      applyChanges system uri version rest (workspace.put (document.edit version range chars))
    | none =>
      match uri.filePath? with
      | none => .error (.unknownDocument uri)
      | some path =>
        match system.read path with
        | .error error => .error (.unreadable path error)
        | .ok current => .ok (workspace.load uri (some version) current)

/-- Change a document and analyse it. -/
def changeDocument (workspace : Workspace) (system : FileSystem) (uri : Uri) (version : Int)
    (changes : List Change) : Except DocumentError Workspace :=
  match applyChanges system uri version changes workspace with
  | .ok changed => .ok (changed.analyze system uri)
  | .error error => .error error

/-- Close a document: forget it if the settings say so. -/
def closeDocument (workspace : Workspace) (uri : Uri) : Workspace :=
  if workspace.settings.evictOnClose ∧ workspace.contains uri then
    (workspace.erase uri).withdraw uri
  else workspace

end Workspace

end Azsl
