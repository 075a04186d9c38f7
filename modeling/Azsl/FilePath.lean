/-
Azsl.FilePath — paths of files as text.

A path is compared by its components: repeated slashes, a slash at the end and inner dots do
not count. Its text is kept as it was written, because that is what is shown and what the file
system is asked for.
-/

namespace Azsl

/-- A part of a path. -/
inductive PathComponent where
  /-- The slash an absolute path starts with. -/
  | root
  /-- A dot that a relative path starts with. -/
  | current
  | parent
  | name (text : String)
deriving DecidableEq, Repr

/-- A path as it is written. -/
structure FilePath where
  text : String
deriving DecidableEq, Repr

namespace FilePath

/-- Cut a text at its slashes. -/
def splitSlashes : List Char → List (List Char)
  | [] => [[]]
  | c :: rest =>
    match splitSlashes rest with
    | [] => [[c]]
    | first :: others => if c = '/' then [] :: first :: others else (c :: first) :: others

/-- The stretches between the slashes of the path. -/
def stretches (path : FilePath) : List String :=
  (splitSlashes path.text.toList).map String.ofList

/-- Whether the path starts at the root. -/
def isAbsolute (path : FilePath) : Bool :=
  path.text.toList.head? == some '/'

/-- The component of a stretch that is neither empty nor a dot. -/
def component (stretch : String) : PathComponent :=
  if stretch = ".." then .parent else .name stretch

/-- The components of the path. -/
def components (path : FilePath) : List PathComponent :=
  let inner := (path.stretches.filter (fun s => s ≠ "" ∧ s ≠ ".")).map component
  if path.isAbsolute then .root :: inner
  else if path.stretches.head? = some "." then .current :: inner
  else inner

/-- Whether the components of another path are the last ones of this path. -/
def endsWith (path suffix : FilePath) : Bool :=
  suffix.components.isSuffixOf path.components

/-- A path taken relative to this one; an absolute one stays as it is. -/
def join (path other : FilePath) : FilePath :=
  if other.isAbsolute ∨ path.text = "" then other
  else if path.text.toList.getLast? = some '/' then ⟨path.text ++ other.text⟩
  else ⟨path.text ++ "/" ++ other.text⟩

end FilePath

end Azsl
