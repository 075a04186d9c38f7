/-
Azsl.Server.Configuration — settings as an editor sends them.

Settings are an object, or an array of the same values in order, in which whatever is left out
has its standard value. One value that cannot be read makes all of them unreadable. The folders
that an editor works in are include roots besides those that the settings name.
-/
import Azsl.Json
import Azsl.Server.Capabilities
import Azsl.Uri.File
import Azsl.Uri.Resolve
import Azsl.Workspace.Settings

namespace Azsl

namespace Settings

/-- A path as an editor sends it. -/
def path? (value : Json) : Option FilePath :=
  value.str?.map FilePath.mk

/-- The greatest number of documents that can be asked for: 64 bits. -/
def greatestLimit : Nat := 18446744073709551615

/-- The settings that a value stands for. -/
def ofJson? (value : Json) : Option Settings := do
  let field ← value.record? ["includeRoots", "retryExtensions", "evictOnClose", "maxDiskIncludes"] 0
  return {
    includeRoots := ← Json.withDefault? (Json.listOf? path?) standard.includeRoots
      (field "includeRoots")
    retryExtensions := ← Json.withDefault? (Json.listOf? Json.str?) standard.retryExtensions
      (field "retryExtensions")
    evictOnClose := ← Json.withDefault? Json.bool? standard.evictOnClose (field "evictOnClose")
    maxDiskIncludes := ← Json.withDefault? (Json.natUpTo? greatestLimit) standard.maxDiskIncludes
      (field "maxDiskIncludes") }

/-- The part of a configuration that holds the settings: its section, or all of it. -/
def sectionOf (configuration : Json) : Json :=
  (configuration.field? "azsl").getD configuration

/-- The settings of a configuration; the standard ones if there are none that can be read. -/
def ofConfiguration (configuration : Json) : Settings :=
  (ofJson? (sectionOf configuration)).getD standard

/-- Add include roots in order. -/
def addRoots (settings : Settings) (roots : List FilePath) : Settings :=
  roots.foldl addRoot settings

end Settings

/-- An identifier as an editor sends it. -/
def Uri.ofJson? (value : Json) : Option Uri :=
  value.str?.bind fun text => (Uri.parse text).toOption

/-- What an editor says about itself at the start. -/
structure Startup where
  options : Option Json
  /-- The folders it works in, if it says so. -/
  folders : Option (List Uri)
  /-- The one folder it works in, if it knows of no more. -/
  root : Option Uri

namespace Startup

/-- An editor that says nothing. -/
def silent : Startup := ⟨none, none, none⟩

/-- A folder, which has a name besides its identifier. -/
def folder? (value : Json) : Option Uri := do
  let field ← value.record? ["uri", "name"] 2
  let uri ← Json.required? Uri.ofJson? (field "uri")
  let _ ← Json.required? Json.str? (field "name")
  return uri

/-- The form of what an editor says that does not matter: its process, name and language, how
much it wants to be told about the work of the server, and what it can do. -/
def form : Form :=
  Form.object
    [Form.required "capabilities" Capabilities.form,
     Form.optional "processId" Form.count,
     Form.optional "rootPath" Form.text,
     Form.optional "locale" Form.text,
     Form.optional "trace" (Form.choice ["off", "messages", "verbose"]),
     Form.optional "clientInfo"
       (Form.record [Form.required "name" Form.text, Form.optional "version" Form.text]),
     Form.optional "workDoneToken" (Form.either Form.number Form.text)]

/-- What a value says about an editor. -/
def ofJson? (value : Json) : Option Startup := do
  guard (form value)
  return {
    options := ← Json.optional? some (value.field? "initializationOptions")
    folders := ← Json.optional? (Json.listOf? folder?) (value.field? "workspaceFolders")
    root := ← Json.optional? Uri.ofJson? (value.field? "rootUri") }

/-- The paths of the folders. Those that are no files are left out. -/
def folderPaths (startup : Startup) : List FilePath :=
  (startup.folders.getD startup.root.toList).filterMap Uri.filePath?

/-- The settings at the start. -/
def settings (startup : Startup) : Settings :=
  ((startup.options.map Settings.ofConfiguration).getD .standard).addRoots startup.folderPaths

end Startup

end Azsl
