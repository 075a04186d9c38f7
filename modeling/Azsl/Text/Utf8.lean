/-
Azsl.Text.Utf8 — bytes to characters.

`decodeOne` reads the character at the front of some bytes. Bytes that are not the encoding of
a character are taken together as far as they could have been the start of one, so every
position is either read or known to be broken. `decode?` refuses broken bytes, `decodeLossy`
puts the replacement character in their place.
-/

namespace Azsl

namespace Utf8

/-- The bytes of a text. -/
def encode (chars : List Char) : List UInt8 :=
  chars.flatMap String.utf8EncodeChar

/-- How a lead byte goes on: how many bytes follow, the range of the first of them and the bits
that the lead byte carries. Nothing for a byte that starts no character. -/
def lead? (byte : Nat) : Option (Nat × Nat × Nat × Nat) :=
  if byte < 0x80 then some (0, 0, 0, byte)
  else if byte < 0xC2 then none
  else if byte < 0xE0 then some (1, 0x80, 0xBF, byte - 0xC0)
  else if byte < 0xF0 then
    some (2, if byte = 0xE0 then 0xA0 else 0x80, if byte = 0xED then 0x9F else 0xBF, byte - 0xE0)
  else if byte < 0xF5 then
    some (3, if byte = 0xF0 then 0x90 else 0x80, if byte = 0xF4 then 0x8F else 0xBF, byte - 0xF0)
  else none

/-- Read `count` further bytes, the first of which is in a range. Gives the code point, if all
are there, and how many were read. -/
def continue? (count low high code : Nat) : List UInt8 → Option Nat × Nat
  | [] => (if count = 0 then some code else none, 0)
  | byte :: rest =>
    match count with
    | 0 => (some code, 0)
    | more + 1 =>
      if low ≤ byte.toNat ∧ byte.toNat ≤ high then
        let (found, read) := continue? more 0x80 0xBF (code * 64 + (byte.toNat - 0x80)) rest
        (found, read + 1)
      else (none, 0)

/-- The character at the front of some bytes, and how many bytes it or what is broken there
takes up beyond the first. -/
def decodeOne (byte : UInt8) (rest : List UInt8) : Option Char × Nat :=
  match lead? byte.toNat with
  | none => (none, 0)
  | some (count, low, high, bits) =>
    let (found, read) := continue? count low high bits rest
    (found.map Char.ofNat, read)

/-- The characters of some bytes, with nothing in place of what is broken; `skip` bytes are
read already. -/
def decodeAfter (skip : Nat) : List UInt8 → List (Option Char)
  | [] => []
  | byte :: rest =>
    match skip with
    | n + 1 => decodeAfter n rest
    | 0 =>
      let (found, read) := decodeOne byte rest
      found :: decodeAfter read rest

/-- The characters of some bytes, if they are the encoding of a text. -/
def decode? (bytes : List UInt8) : Option (List Char) :=
  (decodeAfter 0 bytes).mapM id

/-- The characters of some bytes, with a replacement character for each broken stretch. -/
def decodeLossy (bytes : List UInt8) : List Char :=
  (decodeAfter 0 bytes).map (·.getD '\uFFFD')

end Utf8

end Azsl
