/-
Azsl.Server.Packet — how messages are cut out of a stream of bytes.

A message is preceded by header lines, one of which gives its length in bytes, and an empty
line.
-/
import Azsl.Json.Read
import Azsl.Json.Write
import Azsl.Server.Reply
import Azsl.Text.Measure
import Azsl.Text.Utf8

namespace Azsl

namespace Packet

/-- What a line of a header says. -/
inductive HeaderLine where
  /-- The empty line at the end. -/
  | blank
  | length (bytes : Nat)
  /-- Something that does not matter. -/
  | other
deriving DecidableEq, Repr

/-- The name of the header line that gives the length. -/
def lengthName : String := "content-length"

/-- The name of a header line and what is behind its colon and space. -/
def splitName : List Char → Option (List Char × List Char)
  | [] => none
  | ':' :: ' ' :: rest => some ([], rest)
  | c :: rest => (splitName rest).map fun (name, value) => (c :: name, value)

/-- What a line of a header says, if it is one; `line` has its terminator. -/
def headerLine? (line : String) : Option HeaderLine :=
  match line.toList.reverse with
  | '\n' :: '\r' :: [] => some .blank
  | '\n' :: '\r' :: before =>
    (splitName before.reverse).bind fun (name, value) =>
      if String.ofList (name.map Char.toLower) = lengthName then
        if ¬ value.isEmpty ∧ value.all Char.isDigit then some (.length (Json.decimalValue value))
        else none
      else some .other
  | _ => none

/-- The message in the bytes behind a header. -/
def message? (bytes : List UInt8) : Option Message := do
  let chars ← Utf8.decode? bytes
  Message.ofJson? (← Json.parse? chars)

/-- A reply with its header. -/
def render (reply : Reply) : String :=
  let chars := reply.toSent.write
  "Content-Length: " ++ toString (byteLength chars) ++ "\r\n\r\n" ++ String.ofList chars

end Packet

end Azsl
