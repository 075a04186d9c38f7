/-
Azsl.Uri.Domain.Label — the labels of domains.

A label is what stands between two dots. One with other than ASCII characters has a second form
that starts with `xn--` and is ASCII only; both are read into the same label. The second form
must stand for a text that is in normal form already and has such characters.
-/
import Azsl.Uri.Domain.Joining
import Azsl.Uri.Domain.Mapping
import Azsl.Uri.Domain.Normal
import Azsl.Uri.Domain.Punycode

namespace Azsl

/-- A label of a domain. -/
structure DomainLabel where
  text : List Char
  /-- The form that is ASCII only. -/
  ascii : List Char
deriving DecidableEq, Repr

namespace DomainLabel

/-- A character of ASCII. -/
def isAscii (c : Char) : Bool := c.toNat < 0x80

/-- The character that forbids a joint. -/
def nonJoiner : Char := Char.ofNat 0x200C

/-- The character that asks for a joint. -/
def joiner : Char := Char.ofNat 0x200D

/-- The place of the signs that take the vowel from a consonant. -/
def vowelKiller : Nat := 9

/-- Whether each joiner stands where it can be seen, given what is before, the last one first. -/
def joinersFit (before : List Char) : List Char → Bool
  | [] => true
  | c :: rest =>
    let fits :=
      if c = joiner ∨ c = nonJoiner then
        before.head?.any (Domain.combiningClass · == vowelKiller) ||
          (c == nonJoiner && Domain.reaches Domain.joinsForward before &&
            Domain.reaches Domain.joinsBackward rest)
      else true
    fits && joinersFit (c :: before) rest

/-- The greatest length of a label with other than ASCII characters. -/
def greatestLength : Nat := 1000

/-- The greatest length of what follows `xn--`. -/
def greatestCode : Nat := 2000

/-- Whether a text can be a label. -/
def isProper (text : List Char) : Bool :=
  !text.head?.any Domain.isMark && joinersFit [] text &&
    (text.all isAscii || text.length ≤ greatestLength)

/-- The label of which the form behind `xn--` is given. -/
def ofCode? (code : List Char) : Option DomainLabel :=
  if code.all isAscii ∧ code.length ≤ greatestCode ∧ code.getLast?.any (· != '-') then
    match Punycode.decode? code with
    | some text =>
      if text.all Domain.isPlain ∧ Domain.normalize text = text ∧ isProper text then
        some ⟨text, 'x' :: 'n' :: '-' :: '-' :: code⟩
      else none
    | none => none
  else none

/-- The label of a text in normal form. -/
def ofText? : List Char → Option DomainLabel
  | 'x' :: 'n' :: '-' :: '-' :: code => ofCode? code
  | text =>
    if isProper text then
      some ⟨text, if text.all isAscii then text else "xn--".toList ++ Punycode.encode text⟩
    else none

end DomainLabel

end Azsl
