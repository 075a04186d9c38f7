/-
Azsl.Uri.Domain — the names of domains.

A domain can be written in any script. It is kept in the form that is ASCII only, which is the
same for all ways to write it.
-/
import Azsl.Uri.Domain.Direction
import Azsl.Uri.Domain.Label
import Azsl.Uri.Percent

namespace Azsl

namespace Domain

/-- Cut a text at every occurrence of a character. -/
def splitAt (separator : Char) : List Char → List (List Char)
  | [] => [[]]
  | c :: rest =>
    match splitAt separator rest with
    | [] => [[c]]
    | first :: others => if c = separator then [] :: first :: others else (c :: first) :: others

/-- Characters that no domain may hold. -/
def isForbidden (c : Char) : Bool :=
  Percent.isControl c ||
    [' ', '%', '#', '/', ':', '<', '>', '?', '@', '[', '\\', ']', '^', '|'].contains c

/-- The form of a domain that is ASCII only, if it is one. -/
def toAscii? (chars : List Char) : Option (List Char) := do
  let text := normalize (← chars.mapM mapping?).flatten
  guard (!text.any isForbidden)
  let labels ← (splitAt '.' text).mapM DomainLabel.ofText?
  guard (keepDirections (labels.map (·.text)))
  return ['.'].intercalate (labels.map (·.ascii))

end Domain

end Azsl
