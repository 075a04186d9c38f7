/-
Azsl.Text.Source — a document's text with the index of its lines.

Editors address text by line and UTF-16 column, the syntax tree by byte. `SourceText` converts
between the two and applies range replacements, handing back the `Edit` that a tree needs.

Offsets that no character starts at, lines past the last one and columns past the end of a
line all have an answer, so that every request of an editor can be served.
-/
import Azsl.Text.Edit
import Azsl.Text.Measure

namespace Azsl

/-- Byte offsets behind the line feeds of a text that starts at byte `offset`. -/
def lineStartsAfter (offset : Nat) : List Char → List Nat
  | [] => []
  | c :: rest =>
    if c = '\n' then (offset + 1) :: lineStartsAfter (offset + 1) rest
    else lineStartsAfter (offset + c.utf8Size) rest

/-- Byte offset of the start of every line. -/
def lineStarts (chars : List Char) : List Nat :=
  0 :: lineStartsAfter 0 chars

/-- Row and byte column of an offset in a text with the given line starts. -/
def pointAmong (starts : List Nat) (offset : Nat) : Point :=
  let row := (starts.takeWhile (· ≤ offset)).length - 1
  ⟨row, offset - starts.getD row 0⟩

/-- A text with the byte offset of the start of every line. -/
structure SourceText where
  chars : List Char
  starts : List Nat
deriving DecidableEq, Repr

namespace SourceText

/-- The text made of the given characters. -/
def ofChars (chars : List Char) : SourceText :=
  ⟨chars, lineStarts chars⟩

/-- The text of a string. -/
def ofString (text : String) : SourceText :=
  ofChars text.toList

/-- The text as a string. -/
def toString (text : SourceText) : String :=
  String.ofList text.chars

/-- Length in bytes. -/
def size (text : SourceText) : Nat :=
  byteLength text.chars

/-- Number of lines; a text without line feeds has one. -/
def lineCount (text : SourceText) : Nat :=
  text.starts.length

/-- The characters of a line without its terminator: the line feed, and one carriage return
in front of it or at the end of the text. -/
def lineChars (text : SourceText) (start : Nat) : List Char :=
  let line := (dropBytes start text.chars).takeWhile (· ≠ '\n')
  if line.getLast? = some '\r' then line.dropLast else line

/-- Bytes of the shortest part of `chars` that has at least `units` UTF-16 units, or of all
of it when it has fewer. -/
def bytesOfUnits : Nat → List Char → Nat
  | 0, _ => 0
  | _ + 1, [] => 0
  | n + 1, c :: rest => c.utf8Size + bytesOfUnits (n + 1 - editorUnits c) rest

/-- Byte offset of an editor position. A line past the last one stands for the end of the
text, a column past the end of its line for the end of that line. -/
def offsetAt (text : SourceText) (position : Position) : Nat :=
  match text.starts[position.line]? with
  | none => text.size
  | some start => start + bytesOfUnits position.column (text.lineChars start)

/-- Row and byte column of a byte offset; offsets past the end stand for the end. -/
def pointAt (text : SourceText) (offset : Nat) : Point :=
  pointAmong text.starts (min offset text.size)

/-- The location of a byte offset that is not past the end. -/
def locationAt (text : SourceText) (offset : Nat) : Location :=
  ⟨offset, text.pointAt offset⟩

/-- Editor position of a point in an existing row. A column inside a character is kept as it is.
Editors count lines and the units of a line in 32 bits: texts are taken to have fewer than `2 ^ 32`
lines, and fewer than `2 ^ 32` units on each of them. -/
def positionInRow (text : SourceText) (start : Nat) (point : Point) : Position :=
  match sliceBytes? text.chars start (min (start + point.column) text.size) with
  | some before => ⟨point.row, editorLength before⟩
  | none => ⟨point.row, point.column⟩

/-- Editor position of the end of the text. -/
def endPosition (text : SourceText) : Position :=
  let point := text.pointAt text.size
  text.positionInRow (text.starts.getD point.row 0) point

/-- Editor position of a point; a row past the last one stands for the end of the text. -/
def positionOf (text : SourceText) (point : Point) : Position :=
  match text.starts[point.row]? with
  | none => text.endPosition
  | some start => text.positionInRow start point

/-- Editor position of a byte offset. -/
def positionAt (text : SourceText) (offset : Nat) : Position :=
  text.positionOf (text.pointAt offset)

/-- Editor range of a byte range. -/
def rangeOf (text : SourceText) (start stop : Nat) : Range :=
  ⟨text.positionAt start, text.positionAt stop⟩

/-- The characters between two byte offsets; empty unless both are character boundaries. -/
def slice (text : SourceText) (start stop : Nat) : List Char :=
  (sliceBytes? text.chars start stop).getD []

/-- Replace a range by new characters, and say what was replaced. A range that ends before it
starts is empty. -/
def applyChange (text : SourceText) (range : Range) (replacement : List Char) :
    SourceText × Edit :=
  let start := text.offsetAt range.start
  let oldEnd := max start (text.offsetAt range.stop)
  let changed := ofChars
    (takeBytes start text.chars ++ replacement ++ dropBytes oldEnd text.chars)
  let newEnd := start + byteLength replacement
  (changed,
    { start := text.locationAt start
      oldEnd := text.locationAt oldEnd
      newEnd := changed.locationAt newEnd })

end SourceText

end Azsl
