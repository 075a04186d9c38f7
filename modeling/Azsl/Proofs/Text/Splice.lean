/-
Azsl.Proofs.Text.Splice — a change of a text is an exact splice, exactly described.

Whatever range an editor sends, both cuts go between characters, the new text is what stands
before the first cut, the replacement and what stands behind the second, and the edit gives each of
its three places the byte and the point that it has in the text it belongs to. Where the change
starts is a place of both texts: rows and columns only depend on what stands before it, whatever
lines the replacement joins or splits.
-/
import Azsl.Proofs.Text.Positions
import Azsl.Proofs.Text.Shift

namespace Azsl

namespace SourceText

/-- A text changed into another one, as `edit` describes it, by putting `replacement` in the place
of a range. -/
structure Splices (chars : List Char) (range : Range) (replacement : List Char)
    (changed : SourceText) (edit : Edit) : Prop where
  startByte : edit.start.byte = (ofChars chars).offsetAt range.start
  /-- A range that ends before it starts is empty. -/
  oldEndByte : edit.oldEnd.byte
    = max ((ofChars chars).offsetAt range.start) ((ofChars chars).offsetAt range.stop)
  newEndByte : edit.newEnd.byte = edit.start.byte + byteLength replacement
  inside : edit.oldEnd.byte ≤ (ofChars chars).size
  /-- Neither cut goes through a character. -/
  content : ∃ before behind, takeBytes? edit.start.byte chars = some before ∧
    dropBytes? edit.oldEnd.byte chars = some behind ∧
    changed.chars = before ++ replacement ++ behind
  indexed : changed.starts = lineStarts changed.chars
  startPoint : edit.start.point = (ofChars chars).pointAt edit.start.byte
  startPointKept : edit.start.point = changed.pointAt edit.start.byte
  oldEndPoint : edit.oldEnd.point = (ofChars chars).pointAt edit.oldEnd.byte
  newEndPoint : edit.newEnd.point = changed.pointAt edit.newEnd.byte

/-- Every change of every text is a splice. -/
theorem applyChange_splices (chars : List Char) (range : Range) (replacement : List Char) :
    Splices chars range replacement ((ofChars chars).applyChange range replacement).1
      ((ofChars chars).applyChange range replacement).2 := by
  obtain ⟨left, middle, right, hchars, hchange⟩ := applyChange_eq chars range replacement
  have hstart : byteLength left = (ofChars chars).offsetAt range.start := by
    have hbyte := congrArg (·.2.start.byte) hchange
    exact (Location.byte_origin left).symm.trans hbyte.symm
  have holdEnd : byteLength (left ++ middle)
      = max ((ofChars chars).offsetAt range.start) ((ofChars chars).offsetAt range.stop) := by
    have hbyte := congrArg (·.2.oldEnd.byte) hchange
    exact (Location.byte_origin (left ++ middle)).symm.trans hbyte.symm
  -- each place of the edit is a place of a text
  have hstartOld : (Location.origin.advance left).Stands chars :=
    ⟨left, middle ++ right, by rw [hchars, List.append_assoc], rfl⟩
  have hstartNew : (Location.origin.advance left).Stands (left ++ replacement ++ right) :=
    ⟨left, replacement ++ right, List.append_assoc .., rfl⟩
  have holdEndOld : (Location.origin.advance (left ++ middle)).Stands chars :=
    ⟨left ++ middle, right, hchars, rfl⟩
  have hnewEndNew : (Location.origin.advance (left ++ replacement)).Stands
      (left ++ replacement ++ right) := ⟨left ++ replacement, right, rfl, rfl⟩
  rw [hchange]
  constructor
  · rw [Location.byte_origin, hstart]
  · rw [Location.byte_origin, holdEnd]
  · rw [Location.byte_origin, Location.byte_origin, byteLength_append]
  · exact holdEndOld.byte_le
  · refine ⟨left, right, ?_, ?_, rfl⟩
    · rw [Location.byte_origin, hchars, List.append_assoc]
      exact takeBytes?_byteLength left _
    · rw [Location.byte_origin, hchars]
      exact dropBytes?_byteLength (left ++ middle) right
  · rfl
  · exact hstartOld.point_eq
  · exact hstartNew.point_eq
  · exact holdEndOld.point_eq
  · exact hnewEndNew.point_eq

end SourceText

end Azsl
