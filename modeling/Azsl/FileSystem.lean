/-
Azsl.FileSystem — directories and files in memory.

A file system knows its directories and the content of its files by their absolute place, a
list of names. Asking for a path walks it from the root, stretch by stretch: dots stay, double
dots go up, and nothing can be below a file.
-/
import Azsl.FilePath

namespace Azsl

/-- What a file holds. -/
inductive FileContent where
  | text (chars : List Char)
  /-- Bytes that are no text. -/
  | binary
deriving DecidableEq, Repr

/-- Why a file cannot be read. -/
inductive ReadError where
  | notFound
  | notADirectory
  | isADirectory
  | nameTooLong
  /-- The path holds the character that ends a path for the operating system. -/
  | nulCharacter
  | invalidText
deriving DecidableEq, Repr

namespace ReadError

/-- The wording of an error. -/
def message : ReadError → String
  | notFound => "No such file or directory (os error 2)"
  | notADirectory => "Not a directory (os error 20)"
  | isADirectory => "Is a directory (os error 21)"
  | nameTooLong => "File name too long (os error 36)"
  | nulCharacter => "file name contained an unexpected NUL byte"
  | invalidText => "stream did not contain valid UTF-8"

end ReadError

/-- Directories and files by their places. -/
structure FileSystem where
  directories : List (List String)
  files : List (List String × FileContent)
deriving DecidableEq, Repr

/-- What is found at a place. -/
inductive Entry where
  | directory
  | file (content : FileContent)
deriving DecidableEq, Repr

namespace FileSystem

/-- Nothing but the root. -/
def empty : FileSystem := ⟨[[]], []⟩

/-- What is at a place. -/
def entry? (system : FileSystem) (place : List String) : Option Entry :=
  match system.files.lookup place with
  | some content => some (.file content)
  | none => if system.directories.contains place then some .directory else none

/-- The greatest number of bytes in a name. -/
def longestName : Nat := 255

/-- The greatest number of bytes in a path. -/
def longestPath : Nat := 4095

/-- Walk on from a place. -/
def walkFrom (system : FileSystem) (place : List String) :
    List String → Except ReadError (List String × Entry)
  | [] =>
    match system.entry? place with
    | some entry => .ok (place, entry)
    | none => .error .notFound
  | stretch :: rest =>
    match system.entry? place with
    | some .directory =>
      if stretch = "" ∨ stretch = "." then system.walkFrom place rest
      else if stretch = ".." then system.walkFrom place.dropLast rest
      else if longestName < stretch.utf8ByteSize then .error .nameTooLong
      else system.walkFrom (place ++ [stretch]) rest
    | some (.file _) => .error .notADirectory
    | none => .error .notFound

/-- The place of an absolute path and what is there. -/
def locate (system : FileSystem) (path : FilePath) : Except ReadError (List String × Entry) :=
  if path.text.toList.contains '\x00' then .error .nulCharacter
  else if longestPath < path.text.utf8ByteSize then .error .nameTooLong
  else if path.isAbsolute then system.walkFrom [] path.stretches
  else .error .notFound

/-- Whether there is a file at a path. -/
def isFile (system : FileSystem) (path : FilePath) : Bool :=
  match system.locate path with
  | .ok (_, .file _) => true
  | _ => false

/-- The text of the file at a path. -/
def read (system : FileSystem) (path : FilePath) : Except ReadError (List Char) :=
  match system.locate path with
  | .ok (_, .file (.text chars)) => .ok chars
  | .ok (_, .file .binary) => .error .invalidText
  | .ok (_, .directory) => .error .isADirectory
  | .error error => .error error

/-- The paths of all files below a path, itself included if it is a file. -/
def filesBelow (system : FileSystem) (root : FilePath) : List FilePath :=
  match system.locate root with
  | .ok (_, .file _) => [root]
  | .ok (place, .directory) =>
    (system.files.map (·.1)).filterMap fun file =>
      if place.isPrefixOf file then
        some ((file.drop place.length).foldl (fun path name => path.join ⟨name⟩) root)
      else none
  | .error _ => []

/-! ## Changes -/

/-- The places above a place, the root first. -/
def ancestors (place : List String) : List (List String) :=
  (List.range place.length).map place.take

/-- Make a directory and those above it. -/
def makeDirectory (system : FileSystem) (place : List String) : FileSystem :=
  { system with
    directories := system.directories ++
      (ancestors place ++ [place]).filter (!system.directories.contains ·) }

/-- Write a file, with the directories above it. -/
def write (system : FileSystem) (place : List String) (content : FileContent) : FileSystem :=
  let made := system.makeDirectory place.dropLast
  { made with files := made.files.filter (·.1 ≠ place) ++ [(place, content)] }

/-- Remove a file. -/
def remove (system : FileSystem) (place : List String) : FileSystem :=
  { system with files := system.files.filter (·.1 ≠ place) }

end FileSystem

end Azsl
