/-
Azsl.Text.Edit — the description of one replacement in a text.

The replaced stretch and the end of what replaced it, each in bytes and in points. A syntax
tree needs no more than this to keep up with its text.
-/
import Azsl.Text.Location

namespace Azsl

/-- A stretch of text from `start` to `oldEnd` gave way to one from `start` to `newEnd`. -/
structure Edit where
  start : Location
  oldEnd : Location
  newEnd : Location
deriving DecidableEq, Repr

namespace Edit

/-- Where a byte offset behind the replaced stretch goes. -/
def shiftByte (edit : Edit) (byte : Nat) : Nat :=
  byte + edit.newEnd.byte - edit.oldEnd.byte

/-- Where a point behind the replaced stretch goes: on the last replaced row it keeps its
distance from the end of the stretch, on later rows only the row moves. -/
def shiftPoint (edit : Edit) (point : Point) : Point :=
  if point.row = edit.oldEnd.point.row then
    ⟨edit.newEnd.point.row,
      edit.newEnd.point.column + (point.column - edit.oldEnd.point.column)⟩
  else
    ⟨point.row + edit.newEnd.point.row - edit.oldEnd.point.row, point.column⟩

/-- Where a location behind the replaced stretch goes. -/
def shift (edit : Edit) (here : Location) : Location :=
  ⟨edit.shiftByte here.byte, edit.shiftPoint here.point⟩

end Edit

end Azsl
