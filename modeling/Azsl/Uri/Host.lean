/-
Azsl.Uri.Host — the hosts of resource identifiers.

A host is the name of a domain, an address of four bytes or one of eight groups in brackets.
Its normal form is a text again, which is all that is kept. Identifiers whose scheme has no
rules of its own take any host that could not be mistaken for another part.
-/
import Azsl.Uri.Basic
import Azsl.Uri.Domain
import Azsl.Uri.Percent

namespace Azsl

namespace Host

/-! ## Numbers -/

/-- The value of digits in a base. -/
def number (base : Nat) (digits : List Char) : Nat :=
  digits.foldl (fun n c => base * n + (Percent.value? c).getD 0) 0

/-- Whether a text is digits of a base only. -/
def areDigits (base : Nat) (chars : List Char) : Bool :=
  chars.all fun c => (Percent.value? c).any (· < base)

/-! ## Addresses of four bytes -/

/-- A number in decimal, octal or hexadecimal notation. -/
def ipv4Number? (chars : List Char) : Option Nat :=
  match chars with
  | [] => none
  | '0' :: x :: rest =>
    if x = 'x' ∨ x = 'X' then if areDigits 16 rest then some (number 16 rest) else none
    else if areDigits 8 (x :: rest) then some (number 8 (x :: rest)) else none
  | _ => if areDigits 10 chars then some (number 10 chars) else none

/-- The parts of a domain; a dot at the end does not count. -/
def labels (domain : List Char) : List (List Char) :=
  let parts := Domain.splitAt '.' domain
  if 1 < parts.length ∧ parts.getLast? = some [] then parts.dropLast else parts

/-- Whether a domain has to be read as an address: its last part is a number. -/
def endsInNumber (domain : List Char) : Bool :=
  (labels domain).getLast?.any fun last =>
    (!last.isEmpty && areDigits 10 last) || (ipv4Number? last).isSome

/-- The value of an address: the last part fills all bytes that the others leave. -/
def ipv4? (domain : List Char) : Option Nat :=
  let parts := labels domain
  if 4 < parts.length then none
  else
    match (parts.mapM ipv4Number?).map List.reverse with
    | some (last :: others) =>
      let room := Nat.pow 256 (4 - others.length)
      if room ≤ last ∨ others.any (255 < ·) then none
      else some (others.foldr (fun n value => value * 256 + n) 0 * room + last)
    | _ => none

/-- The written form of an address of four bytes. -/
def renderIpv4 (address : Nat) : String :=
  ".".intercalate ([16777216, 65536, 256, 1].map fun unit => toString (address / unit % 256))

/-! ## Addresses of eight groups -/

/-- One byte of an address inside a longer one: no leading zeros. -/
def plainByte? (chars : List Char) : Option Nat :=
  if chars.isEmpty ∨ !areDigits 10 chars ∨ (1 < chars.length ∧ chars.head? = some '0') then none
  else
    let n := number 10 chars
    if n ≤ 255 then some n else none

/-- One group of hexadecimal digits. -/
def group? (chars : List Char) : Option Nat :=
  if chars.isEmpty ∨ 4 < chars.length ∨ !areDigits 16 chars then none
  else some (number 16 chars)

/-- Groups between colons; the last may be four bytes with dots, which make two groups. -/
def groups? : List (List Char) → Option (List Nat)
  | [] => some []
  | [last] =>
    if last.contains '.' then
      match (Domain.splitAt '.' last).mapM plainByte? with
      | some [a, b, c, d] => some [256 * a + b, 256 * c + d]
      | _ => none
    else (group? last).map ([·])
  | first :: rest =>
    match group? first, groups? rest with
    | some n, some others => some (n :: others)
    | _, _ => none

/-- The groups on one side of a double colon. -/
def side? (chars : List Char) : Option (List Nat) :=
  if chars.isEmpty then some [] else groups? (Domain.splitAt ':' chars)

/-- Cut a text at its first double colon. -/
def splitDouble : List Char → Option (List Char × List Char)
  | [] => none
  | [_] => none
  | a :: b :: rest =>
    if a = ':' ∧ b = ':' then some ([], rest)
    else (splitDouble (b :: rest)).map fun (left, right) => (a :: left, right)

/-- The groups of an address; a double colon stands for the zeros that are missing. -/
def ipv6? (chars : List Char) : Option (List Nat) :=
  match splitDouble chars with
  | some (left, right) =>
    match (if left.contains '.' then none else side? left), side? right with
    | some before, some after =>
      let known := before.length + after.length
      if known ≤ 7 then some (before ++ List.replicate (8 - known) 0 ++ after) else none
    | _, _ => none
  | none =>
    match side? chars with
    | some groups => if groups.length = 8 then some groups else none
    | none => none

/-- Length of the run of zeros at the front. -/
def zeros (groups : List Nat) : Nat :=
  (groups.takeWhile (· == 0)).length

/-- Length of the longest run of zeros. -/
def longestZeros : List Nat → Nat
  | [] => 0
  | group :: rest => max (zeros (group :: rest)) (longestZeros rest)

/-- Groups of digits with colons in between. -/
def renderGroups (groups : List Nat) : String :=
  ":".intercalate (groups.map fun group => String.ofList (Nat.toDigits 16 group))

/-- The groups before the first run of `length` zeros, and those behind it. -/
def aroundZeros (length : Nat) : List Nat → List Nat × List Nat
  | [] => ([], [])
  | group :: rest =>
    if zeros (group :: rest) = length then ([], (group :: rest).drop length)
    else
      let (before, after) := aroundZeros length rest
      (group :: before, after)

/-- The written form of an address of eight groups: the longest run of zeros, if there are two
or more, gives way to a double colon. -/
def renderIpv6 (groups : List Nat) : String :=
  let run := longestZeros groups
  if 2 ≤ run then
    let (before, after) := aroundZeros run groups
    "[" ++ renderGroups before ++ "::" ++ renderGroups after ++ "]"
  else "[" ++ renderGroups groups ++ "]"

/-! ## Hosts -/

/-- Characters that the host of any other identifier may not hold. -/
def isInvalid (c : Char) : Bool :=
  ['\x00', '\t', '\n', '\r', ' ', '#', '/', ':', '<', '>', '?', '@', '[', '\\', ']', '^',
    '|'].contains c

/-- The host of a special scheme: an address, or a domain in ASCII. -/
def parse (chars : List Char) : Except UriError String :=
  if chars.head? = some '[' then
    if chars.length < 2 ∨ chars.getLast? ≠ some ']' then .error .invalidIpv6
    else
      match ipv6? (chars.drop 1).dropLast with
      | some groups => .ok (renderIpv6 groups)
      | none => .error .invalidIpv6
  else
    match Utf8.decode? (Percent.decode chars) with
    | none => .error .invalidDomain
    | some decoded =>
      match Domain.toAscii? decoded with
      | none => .error .invalidDomain
      | some domain =>
        if domain.isEmpty then .error .emptyHost
        else if endsInNumber domain then
          match ipv4? domain with
          | some address => .ok (renderIpv4 address)
          | none => .error .invalidIpv4
        else .ok (String.ofList domain)

/-- The host of any other scheme. -/
def parseOpaque (chars : List Char) : Except UriError String :=
  if chars.head? = some '[' then parse chars
  else if chars.any isInvalid then .error .invalidHostCharacter
  else .ok (String.ofList (Percent.encode Percent.isControl chars))

end Host

end Azsl
