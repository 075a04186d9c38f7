/-
Azsl.Json.Read — from text to values.

The text is cut into lexemes first. A reader then takes one lexeme after the other: it keeps the
arrays and objects that are open, innermost first, and knows what may come next. A text is a
value if the reader is done when its last lexeme has been taken.
-/
import Azsl.Json

namespace Azsl

namespace Json

/-- The smallest parts of a text that mean something. -/
inductive Lexeme where
  | openArray
  | closeArray
  | openObject
  | closeObject
  | comma
  | colon
  | scalar (value : Json)

/-! ## Strings -/

/-- What stands for a part of a string: itself, or the number of a UTF-16 unit. -/
inductive StringPart where
  | plain (c : Char)
  | unit (value : Nat)
deriving DecidableEq, Repr

/-- The value of a hexadecimal digit. -/
def hexDigit? (c : Char) : Option Nat :=
  if '0' ≤ c ∧ c ≤ '9' then some (c.toNat - 48)
  else if 'a' ≤ c ∧ c ≤ 'f' then some (c.toNat - 87)
  else if 'A' ≤ c ∧ c ≤ 'F' then some (c.toNat - 55)
  else none

/-- The value of hexadecimal digits. -/
def hexValue? (digits : List Char) : Option Nat :=
  digits.foldlM (fun value c => (hexDigit? c).map (value * 16 + ·)) 0

/-- The character that an escape of one letter stands for. -/
def escaped? : Char → Option Char
  | '"' => some '"'
  | '\\' => some '\\'
  | '/' => some '/'
  | 'b' => some '\x08'
  | 'f' => some '\x0c'
  | 'n' => some '\n'
  | 'r' => some '\r'
  | 't' => some '\t'
  | _ => none

/-- The parts of a string up to its closing quote, and the text behind it. -/
def stringParts? : List Char → Option (List StringPart × List Char)
  | [] => none
  | '"' :: rest => some ([], rest)
  | '\\' :: 'u' :: a :: b :: c :: d :: rest => do
    let value ← hexValue? [a, b, c, d]
    let (parts, behind) ← stringParts? rest
    return (.unit value :: parts, behind)
  | '\\' :: c :: rest => do
    let value ← escaped? c
    let (parts, behind) ← stringParts? rest
    return (.plain value :: parts, behind)
  | c :: rest => do
    if c.toNat < 32 ∨ c = '\\' then none
    let (parts, behind) ← stringParts? rest
    return (.plain c :: parts, behind)

/-- Whether a unit is the first of a pair. -/
def isHigh (value : Nat) : Bool :=
  0xD800 ≤ value && value < 0xDC00

/-- Whether a unit is the second of a pair. -/
def isLow (value : Nat) : Bool :=
  0xDC00 ≤ value && value < 0xE000

/-- The characters of a string; both units of a pair have to be there. -/
def joinParts? : List StringPart → Option (List Char)
  | [] => some []
  | .plain c :: rest => (joinParts? rest).map (c :: ·)
  | .unit high :: .unit low :: rest =>
    if isHigh high ∧ isLow low then
      (joinParts? rest).map (Char.ofNat (0x10000 + (high - 0xD800) * 1024 + (low - 0xDC00)) :: ·)
    else if isHigh high ∨ isLow high then none
    else (joinParts? (.unit low :: rest)).map (Char.ofNat high :: ·)
  | .unit value :: rest =>
    if isHigh value ∨ isLow value then none
    else (joinParts? rest).map (Char.ofNat value :: ·)

/-! ## Numbers -/

/-- The characters of numbers. -/
def isNumeric (c : Char) : Bool :=
  c.isDigit || c == '-' || c == '+' || c == '.' || c == 'e' || c == 'E'

/-- Whether some characters are the digits of a whole number, without a zero before others. -/
def isWhole (digits : List Char) : Bool :=
  !digits.isEmpty && digits.all Char.isDigit && (digits.length == 1 || digits.head? != some '0')

/-- Whether some characters are an exponent, with its letter, or nothing. -/
def isExponent : List Char → Bool
  | [] => true
  | letter :: rest =>
    let digits := match rest with
      | '+' :: more => more
      | '-' :: more => more
      | more => more
    (letter == 'e' || letter == 'E') && !digits.isEmpty && digits.all Char.isDigit

/-- Whether some characters are a fraction, with its point, or nothing, and then an exponent. -/
def isFraction : List Char → Bool
  | '.' :: rest =>
    !(rest.takeWhile Char.isDigit).isEmpty && isExponent (rest.dropWhile Char.isDigit)
  | chars => isExponent chars

/-- The value of decimal digits. -/
def decimalValue (digits : List Char) : Nat :=
  digits.foldl (fun value c => value * 10 + (c.toNat - 48)) 0

/-- The number that some characters are. A negative zero is not whole. -/
def number? (chars : List Char) : Option Json :=
  let isNegative := chars.head? == some '-'
  let magnitude := if isNegative then chars.drop 1 else chars
  let digits := magnitude.takeWhile Char.isDigit
  let behind := magnitude.dropWhile Char.isDigit
  if isWhole digits ∧ isFraction behind then
    let value := decimalValue digits
    if ¬ behind.isEmpty ∨ (isNegative ∧ value = 0) then some (.fractional (String.ofList chars))
    else some (.int (if isNegative then -(value : Int) else value))
  else none

/-! ## Lexemes -/

/-- Characters between lexemes. -/
def isSpace (c : Char) : Bool :=
  c == ' ' || c == '\t' || c == '\n' || c == '\r'

/-- The value that a word stands for. -/
def word : List Char → Option Json
  | ['n', 'u', 'l', 'l'] => some .null
  | ['t', 'r', 'u', 'e'] => some (.bool true)
  | ['f', 'a', 'l', 's', 'e'] => some (.bool false)
  | _ => none

/-- The lexeme that starts with a character, and the text behind it. -/
def lexeme? (c : Char) (rest : List Char) : Option (Lexeme × List Char) :=
  match c with
  | '[' => some (.openArray, rest)
  | ']' => some (.closeArray, rest)
  | '\x7b' => some (.openObject, rest)
  | '\x7d' => some (.closeObject, rest)
  | ',' => some (.comma, rest)
  | ':' => some (.colon, rest)
  | '"' => do
    let (parts, behind) ← stringParts? rest
    let chars ← joinParts? parts
    return (.scalar (.str (String.ofList chars)), behind)
  | c =>
    let (isPart, read) : (Char → Bool) × (List Char → Option Json) :=
      if c.isAlpha then (Char.isAlpha, word) else (isNumeric, number?)
    (read (c :: rest.takeWhile isPart)).map fun value =>
      (.scalar value, rest.dropWhile isPart)

/-- The lexemes of a text, of which there are at most `fuel` with the spaces between them. -/
def lexemesUpTo : Nat → List Char → Option (List Lexeme)
  | _, [] => some []
  | 0, _ :: _ => none
  | fuel + 1, c :: rest =>
    if isSpace c then lexemesUpTo fuel rest
    else do
      let (lexeme, behind) ← lexeme? c rest
      return lexeme :: (← lexemesUpTo fuel behind)

/-- The lexemes of a text. Each takes at least one character. -/
def lexemes? (chars : List Char) : Option (List Lexeme) :=
  lexemesUpTo chars.length chars

/-! ## Values -/

/-- An array or object that is open. What it holds so far is kept latest first. -/
inductive Frame where
  | items (before : List Json)
  /-- The name is that of the field whose value is being read. -/
  | fields (before : List (String × Json)) (name : String)

/-- What a reader waits for, inside the arrays and objects that are open. -/
inductive Reader where
  | atValue (frames : List Frame)
  | firstItem (frames : List Frame)
  | afterItem (items : List Json) (frames : List Frame)
  | firstName (frames : List Frame)
  | atName (fields : List (String × Json)) (frames : List Frame)
  | afterName (fields : List (String × Json)) (name : String) (frames : List Frame)
  | afterField (fields : List (String × Json)) (frames : List Frame)
  | done (value : Json)

namespace Reader

/-- A value is complete. -/
def finish (value : Json) : List Frame → Reader
  | [] => done value
  | .items before :: frames => afterItem (value :: before) frames
  | .fields before name :: frames => afterField ((name, value) :: before) frames

/-- Take the first lexeme of a value. -/
def start (frames : List Frame) : Lexeme → Option Reader
  | .scalar value => some (finish value frames)
  | .openArray => some (firstItem frames)
  | .openObject => some (firstName frames)
  | _ => none

/-- Take one lexeme. -/
def step : Reader → Lexeme → Option Reader
  | atValue frames, lexeme => start frames lexeme
  | firstItem frames, .closeArray => some (finish (.arr []) frames)
  | firstItem frames, lexeme => start (.items [] :: frames) lexeme
  | afterItem items frames, .comma => some (atValue (.items items :: frames))
  | afterItem items frames, .closeArray => some (finish (.arr items.reverse) frames)
  | firstName frames, .closeObject => some (finish (.obj []) frames)
  | firstName frames, .scalar (.str field) => some (afterName [] field frames)
  | atName fields frames, .scalar (.str field) => some (afterName fields field frames)
  | afterName fields field frames, .colon => some (atValue (.fields fields field :: frames))
  | afterField fields frames, .comma => some (atName fields frames)
  | afterField fields frames, .closeObject => some (finish (.obj fields.reverse) frames)
  | _, _ => none

end Reader

/-- The value that a text stands for. -/
def parse? (chars : List Char) : Option Json := do
  let lexemes ← lexemes? chars
  match ← lexemes.foldlM Reader.step (.atValue []) with
  | .done value => some value
  | _ => none

end Json

end Azsl
