/-
Azsl.Include — from the path of an include to the document it means.

An include that starts with a dot is resolved against the document it stands in. Any other
means the first known document whose path ends with it, or else a file below one of the
include roots.
-/
import Azsl.FileSystem
import Azsl.Uri.File
import Azsl.Uri.Resolve

namespace Azsl

/-- Why an operation on documents failed. -/
inductive DocumentError where
  | unknownDocument (uri : Uri)
  | unreadable (path : FilePath) (error : ReadError)
  | noIdentifier (path : FilePath)
  | unresolvable (path : String) (owner : Uri) (error : UriError)
deriving DecidableEq, Repr

namespace DocumentError

/-- The wording of an error. -/
def message : DocumentError → String
  | unknownDocument uri => "unknown document " ++ uri.render
  | unreadable path error => "failed to read " ++ path.text ++ ": " ++ error.message
  | noIdentifier path => "invalid path " ++ path.text
  | unresolvable path owner error =>
    "invalid path " ++ path ++ " from " ++ owner.render ++ ": " ++ error.message

end DocumentError

namespace Include

/-- A path with slashes in place of backslashes. -/
def normalize (path : String) : String :=
  String.ofList (path.toList.map fun c => if c = '\\' then '/' else c)

/-- Whether an include is resolved against the document it stands in. -/
def isRelative (path : String) : Bool :=
  path.toList.head? == some '.'

/-- A path without `./` at its front, however often. -/
def trimDots : List Char → List Char
  | '.' :: '/' :: rest => trimDots rest
  | chars => chars

/-- An include as a path below a directory. -/
def trimmed (path : String) : List Char :=
  trimDots (normalize path).toList

/-- The path of a document, decoded if it is that of a file. -/
def documentPath (uri : Uri) : String :=
  match uri.filePath? with
  | some path => normalize path.text
  | none => uri.path

/-- Whether the path of a document ends with an include, and the include starts at the start of
a component. -/
def isMatch (uri : Uri) (path : String) : Bool :=
  let wanted := trimmed path
  let known := (documentPath uri).toList
  let before := known.take (known.length - wanted.length)
  !wanted.isEmpty && wanted.isSuffixOf known &&
    (before.isEmpty || before.getLast? == some '/' || wanted.head? == some '/')

/-- The document that an include means relative to the one it stands in. -/
def resolveRelative (owner : Uri) (path : String) : Except DocumentError Uri :=
  match owner.join (normalize path) with
  | .ok uri => .ok uri
  | .error error => .error (.unresolvable path owner error)

/-- The first of some documents that an include means. -/
def findDocument? (path : String) (uris : List Uri) : Option Uri :=
  uris.find? (isMatch · path)

/-- The file below a root that an include means: right below it, or anywhere. -/
def findBelow? (system : FileSystem) (root relative : FilePath) : Option FilePath :=
  let direct := root.join relative
  if system.isFile direct then some direct
  else (system.filesBelow root).find? (·.endsWith relative)

/-- The file below some roots that an include means, looked for in their order. -/
def findFile? (system : FileSystem) (roots : List FilePath) (path : String) : Option FilePath :=
  let relative := trimmed path
  if relative.isEmpty then none
  else roots.findSome? (findBelow? system · ⟨String.ofList relative⟩)

/-- The identifier and the text of a file. -/
def read (system : FileSystem) (path : FilePath) : Except DocumentError (Uri × List Char) :=
  match Uri.ofFilePath? path with
  | none => .error (.noIdentifier path)
  | some uri =>
    match system.read path with
    | .ok chars => .ok (uri, chars)
    | .error error => .error (.unreadable path error)

end Include

end Azsl
