/-
Azsl.Uri.File — identifiers of files and their paths.

A path is written into an identifier component by component, each percent-encoded, and read
back by decoding what stands between the slashes. Reading back works for any identifier with a
path and without a host, whatever its scheme.
-/
import Azsl.FilePath
import Azsl.Uri.Basic
import Azsl.Uri.Percent

namespace Azsl

namespace Uri

/-- A drive letter at the end of a path is followed by a slash. -/
def closeDrive (bytes : List UInt8) : List UInt8 :=
  match bytes.reverse with
  | last :: letter :: _ :: _ =>
    let isLetter := (0x41 ≤ letter ∧ letter ≤ 0x5A) ∨ (0x61 ≤ letter ∧ letter ≤ 0x7A)
    if isLetter ∧ (last = 0x3A ∨ last = 0x7C) then bytes ++ [0x2F] else bytes
  | _ => bytes

/-- The path that an identifier stands for, if it has no host but the local one. -/
def filePath? (uri : Uri) : Option FilePath :=
  let host := (uri.authority.map (·.host)).getD ""
  if host ≠ "" ∧ host ≠ "localhost" then none
  else if uri.path.toList.head? = some '/' then
    some ⟨String.ofList (Utf8.decodeLossy (closeDrive (Percent.decode uri.path.toList)))⟩
  else none

/-- The text of a component. -/
def componentText : PathComponent → String
  | .root => "/"
  | .current => "."
  | .parent => ".."
  | .name text => text

/-- The identifier of an absolute path. -/
def ofFilePath? (path : FilePath) : Option Uri :=
  if path.isAbsolute then
    let parts := (path.components.drop 1).map fun component =>
      '/' :: Percent.encode Percent.inFileName (componentText component).toList
    let text := if parts.isEmpty then ['/'] else parts.flatten
    some ⟨"file", some .empty, String.ofList text, none, none⟩
  else none

end Uri

end Azsl
