/-
Azsl.Token.Scan — how far each kind of token reaches.

Every function here looks at the front of a text and says how many of its characters belong
to the token, zero when the text does not start with such a token. `nextPieces` puts the rules
in their order of precedence and cuts the front of a text into pieces.
-/
import Azsl.Text.Blank
import Azsl.Text.WordChar
import Azsl.Token.Basic

namespace Azsl

namespace Scan

/-! ## Character classes -/

/-- A decimal digit. -/
def isDigit (c : Char) : Bool := '0' ≤ c && c ≤ '9'

/-- A hexadecimal digit. -/
def isHexDigit (c : Char) : Bool :=
  isDigit c || ('a' ≤ c && c ≤ 'f') || ('A' ≤ c && c ≤ 'F')

/-- A letter of the Latin alphabet. -/
def isLetter (c : Char) : Bool := ('a' ≤ c && c ≤ 'z') || ('A' ≤ c && c ≤ 'Z')

/-- The characters of keywords and names. -/
def isNameChar (c : Char) : Bool := isLetter c || isDigit c || c == '_'

/-- Length of the longest front part whose characters are all in a class. -/
def runLength (p : Char → Bool) (chars : List Char) : Nat :=
  (chars.takeWhile p).length

/-! ## Comments and directives -/

/-- Characters of a line comment behind its slashes. A backslash takes the character behind it
into the comment, a line feed included. -/
def lineCommentBody : List Char → Nat
  | [] => 0
  | ['\\'] => 0
  | '\\' :: _ :: rest => 2 + lineCommentBody rest
  | c :: rest => if c = '\n' then 0 else 1 + lineCommentBody rest

/-- Characters up to and with the first `*/`; all of them when there is none. -/
def blockCommentBody : List Char → Nat
  | [] => 0
  | '*' :: '/' :: _ => 2
  | _ :: rest => 1 + blockCommentBody rest

/-- A comment. A block comment that is not closed runs to the end of the text. -/
def comment : List Char → Nat
  | '/' :: '/' :: rest => 2 + lineCommentBody rest
  | '/' :: '*' :: rest => 2 + blockCommentBody rest
  | _ => 0

/-- The word `#include`, unless a word character follows it. -/
def includeDirective (chars : List Char) : Nat :=
  let name := "#include".toList
  if name.isPrefixOf chars then
    match chars.drop name.length with
    | c :: _ => if isWordChar c then 0 else name.length
    | [] => name.length
  else 0

/-- Characters of a preprocessor line behind its `#`. A backslash at the end of a line
continues it on the next. -/
def directiveBody : List Char → Nat
  | [] => 0
  | '\\' :: '\n' :: rest => 2 + directiveBody rest
  | '\\' :: '\r' :: '\n' :: rest => 3 + directiveBody rest
  | c :: rest => if c = '\r' ∨ c = '\n' then 0 else 1 + directiveBody rest

/-- A preprocessor line. -/
def directive : List Char → Nat
  | '#' :: rest => 1 + directiveBody rest
  | _ => 0

/-! ## Literals and words -/

/-- The characters that may follow a backslash in a string. -/
def isEscapable (c : Char) : Bool :=
  ['\'', '"', '?', 'a', 'b', 'f', 'n', 'r', 't', 'v', '\\'].contains c

/-- Characters of a string behind its opening quote, the closing one included. -/
def stringBody? : List Char → Option Nat
  | [] => none
  | '"' :: _ => some 1
  | ['\\'] => none
  | '\\' :: c :: rest => if isEscapable c then (stringBody? rest).map (2 + ·) else none
  | c :: rest => if c = '\n' then none else (stringBody? rest).map (1 + ·)

/-- A string on one line, closed and with known escapes only. -/
def stringLiteral : List Char → Nat
  | '"' :: rest => ((stringBody? rest).map (1 + ·)).getD 0
  | _ => 0

/-- Length of the first of some spellings that a text starts with. -/
def firstSpelling (spellings : List String) (chars : List Char) : Nat :=
  match spellings.find? (fun spelling => spelling.toList.isPrefixOf chars) with
  | some spelling => spelling.length
  | none => 0

/-- Hexadecimal digits behind `0x`; zero without any. -/
def hexadecimal : List Char → Nat
  | '0' :: x :: rest =>
    let digits := runLength isHexDigit rest
    if (x = 'x' ∨ x = 'X') ∧ 0 < digits then 2 + digits else 0
  | _ => 0

/-- A whole number with an optional suffix. -/
def integerLiteral (chars : List Char) : Nat :=
  let hex := hexadecimal chars
  let digits := if 0 < hex then hex else runLength isDigit chars
  if digits = 0 then 0
  else digits
    + firstSpelling ["UL", "LU", "ul", "lu", "U", "u", "L", "l"] (chars.drop digits)

/-- An exponent: `e`, an optional sign and digits. -/
def exponent : List Char → Nat
  | e :: rest =>
    if e = 'e' ∨ e = 'E' then
      let sign := match rest with
        | s :: _ => if s = '+' ∨ s = '-' then 1 else 0
        | [] => 0
      let digits := runLength isDigit (rest.drop sign)
      if digits = 0 then 0 else 1 + sign + digits
    else 0
  | [] => 0

/-- One character of a class, or nothing. -/
def oneOf (letters : List Char) : List Char → Nat
  | c :: _ => if letters.contains c then 1 else 0
  | [] => 0

/-- Digits around a point, with digits on at least one side of it. -/
def pointed (chars : List Char) : Nat :=
  let whole := runLength isDigit chars
  match chars.drop whole with
  | '.' :: rest =>
    let fraction := runLength isDigit rest
    if whole = 0 ∧ fraction = 0 then 0 else whole + 1 + fraction
  | _ => 0

/-- A number with a point, an exponent or a suffix that makes it fractional. -/
def floatLiteral (chars : List Char) : Nat :=
  let head := pointed chars
  let whole := runLength isDigit chars
  let raised := exponent (chars.drop whole)
  if 0 < head then
    let power := exponent (chars.drop head)
    head + power + oneOf ['h', 'H', 'f', 'F', 'l', 'L'] (chars.drop (head + power))
  else if whole = 0 then 0
  else if 0 < raised then
    whole + raised + oneOf ['h', 'H', 'f', 'F', 'l', 'L'] (chars.drop (whole + raised))
  else
    let suffix := oneOf ['h', 'H', 'f', 'F'] (chars.drop whole)
    if suffix = 0 then 0 else whole + suffix

/-- A keyword or a name; digits may come first. -/
def word (chars : List Char) : Nat :=
  runLength isNameChar chars

/-- Operators and delimiters, longer ones before those they start with. A `>` is never joined
with what follows it, so that nested template arguments close one by one. -/
def punctuation : List String :=
  ["<<=", "::", "++", "--", "&&", "||", "<<", "<=", "==", "!=", "*=", "/=", "%=", "+=", "-=",
   "&=", "^=", "|=", "\x7b", "\x7d", "(", ")", "[", "]", ";", ",", ".", ":", "?", "=", "<",
   ">", "+", "-", "*", "/", "%", "&", "|", "^", "!", "~"]

/-- An operator or a delimiter. -/
def punct (chars : List Char) : Nat :=
  firstSpelling punctuation chars

/-! ## The rules in order -/

/-- The kind and the length of the token at the front of a text. Comments, directives and
strings are tried in turn. Of the numbers and the words the longest wins, an earlier one on a
tie. A character that nothing else takes is a token of its own. -/
def nextToken (chars : List Char) : TokenKind × Nat :=
  if 0 < comment chars then (.comment, comment chars)
  else if 0 < includeDirective chars then (.includeDirective, includeDirective chars)
  else if 0 < directive chars then (.directive, directive chars)
  else if 0 < stringLiteral chars then (.stringLiteral, stringLiteral chars)
  else
    let whole := integerLiteral chars
    let fractional := floatLiteral chars
    let name := word chars
    if 0 < name ∧ whole < name ∧ fractional < name then (.word, name)
    else if 0 < fractional ∧ whole < fractional then (.floatLiteral, fractional)
    else if 0 < whole then (.integerLiteral, whole)
    else if 0 < punct chars then (.punct, punct chars)
    else (.unknown, 1)

end Scan

/-- A stretch of text: a token of some kind, or white space. -/
structure Piece where
  kind : Option TokenKind
  chars : List Char
deriving DecidableEq, Repr

namespace Scan

/-- The characters an include path is made of. -/
def isPathChar (c : Char) : Bool :=
  !(['<', '>', '"', '\'', '\r', '\n'].contains c)

/-- The delimiter that closes a path opened by `c`. -/
def closing? (c : Char) : Option Char :=
  if c = '"' then some '"' else if c = '<' then some '>' else none

/-- The path behind `#include` with its delimiters: blanks, the opening one, the path, which
may be empty, and the closing one if it is there. Without an opening one there are only the
blanks. -/
def includeTail (chars : List Char) : List Piece :=
  let blanks := chars.takeWhile (fun c => c == ' ' || c == '\t')
  let rest := chars.drop blanks.length
  let gap : List Piece := if blanks.isEmpty then [] else [⟨none, blanks⟩]
  match rest with
  | [] => gap
  | c :: inner =>
    match closing? c with
    | none => gap
    | some close =>
      let path := inner.takeWhile isPathChar
      gap ++ [⟨some .punct, [c]⟩, ⟨some .includePath, path⟩]
        ++ (if (inner.drop path.length).head? = some close then [⟨some .punct, [close]⟩] else [])

/-- The pieces at the front of a text that is not empty: a run of white space, or a token,
and with an include directive the path that follows it. -/
def nextPieces (chars : List Char) : List Piece :=
  let blanks := chars.takeWhile isBlank
  if blanks.isEmpty then
    let (kind, length) := nextToken chars
    let token : Piece := ⟨some kind, chars.take length⟩
    if kind = .includeDirective then token :: includeTail (chars.drop length) else [token]
  else [⟨none, blanks⟩]

end Scan

/-- Number of characters of some pieces. -/
def Piece.total : List Piece → Nat
  | [] => 0
  | piece :: rest => piece.chars.length + total rest

/-- Cut a text into pieces, passing over `skip` characters that are cut already. -/
def piecesAfter (skip : Nat) : List Char → List Piece
  | [] => []
  | c :: rest =>
    match skip with
    | n + 1 => piecesAfter n rest
    | 0 =>
      let front := Scan.nextPieces (c :: rest)
      front ++ piecesAfter (Piece.total front - 1) rest

/-- Cut a text into tokens and white space; the pieces in a row are the text. -/
def pieces (chars : List Char) : List Piece :=
  piecesAfter 0 chars

/-- Whether only white space stands on the line behind some more characters. -/
def leadsAfter (leads : Bool) (chars : List Char) : Bool :=
  chars.foldl (fun leads c => if c = '\n' then true else leads && isBlank c) leads

/-- The tokens of pieces in a row, the first of which starts at `here`. -/
def place (here : Location) (leads : Bool) : List Piece → List Token
  | [] => []
  | piece :: rest =>
    let stop := here.advance piece.chars
    let others := place stop (leadsAfter leads piece.chars) rest
    match piece.kind with
    | none => others
    | some kind => ⟨kind, here, stop, String.ofList piece.chars, leads⟩ :: others

/-- Every token of a text, trivia included. White space is left out. -/
def tokenize (chars : List Char) : List Token :=
  place .origin true (pieces chars)

end Azsl
