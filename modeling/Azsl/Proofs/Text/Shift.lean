/-
Azsl.Proofs.Text.Shift — how an edit moves the places of a text.

An edit tells where one stretch of a text gave way to another. What stands behind the stretch
keeps its text, so its place in the new text is the shifted one (`shift_advance`). Starts and ends
of nodes are moved by two functions that agree there, keep the order of bytes and never take a
start past an end.
-/
import Azsl.Proofs.Text.Lines
import Mathlib.Tactic.SplitIfs

namespace Azsl

/-! ## Places in a text -/

/-- The place of a character boundary of a text. -/
def Location.Stands (chars : List Char) (here : Location) : Prop :=
  ∃ before behind, chars = before ++ behind ∧ here = Location.origin.advance before

theorem Location.byte_origin (chars : List Char) :
    (Location.origin.advance chars).byte = byteLength chars := by
  rw [byte_advance]
  exact Nat.zero_add _

/-- Of two ways to cut a text, the one that cuts later goes through the second part of the other. -/
theorem exists_between {first rest second behind : List Char}
    (h : first ++ rest = second ++ behind) (hle : byteLength first ≤ byteLength second) :
    ∃ between, second = first ++ between ∧ rest = between ++ behind := by
  rcases List.append_eq_append_iff.mp h with ⟨between, rfl, rfl⟩ | ⟨between, rfl, rfl⟩
  · exact ⟨between, rfl, rfl⟩
  · cases between with
    | nil => exact ⟨[], by simp, by simp⟩
    | cons c others =>
      have hpos := c.utf8Size_pos
      rw [byteLength_append, byteLength_cons] at hle
      omega

namespace Location

/-- Every line feed starts a row. -/
theorem row_advance (here : Location) (chars : List Char) :
    (here.advance chars).point.row = here.point.row + chars.count '\n' := by
  induction chars generalizing here with
  | nil => rfl
  | cons c rest ih =>
    rw [advance_cons, ih, List.count_cons]
    by_cases hfeed : c = '\n'
    · simp only [step, hfeed, beq_self_eq_true, if_true]
      omega
    · simp [step, hfeed]

/-- Without a line feed only the column grows. -/
theorem column_advance {chars : List Char} (hfeeds : chars.count '\n' = 0) (here : Location) :
    (here.advance chars).point.column = here.point.column + byteLength chars := by
  induction chars generalizing here with
  | nil => rfl
  | cons c rest ih =>
    rw [List.count_cons] at hfeeds
    have hplain : c ≠ '\n' := by
      rintro rfl
      simp at hfeeds
    rw [advance_cons, ih (by omega), byteLength_cons]
    simp [step, hplain, Nat.add_assoc]

/-- Behind a line feed the column does not depend on where the text started. -/
theorem column_advance_eq {chars : List Char} {here there : Location}
    (h : chars.count '\n' ≠ 0 ∨ here.point.column = there.point.column) :
    (here.advance chars).point.column = (there.advance chars).point.column := by
  induction chars generalizing here there with
  | nil => simpa using h
  | cons c rest ih =>
    rw [advance_cons, advance_cons]
    refine ih ?_
    by_cases hfeed : c = '\n'
    · exact .inr (by simp [step, hfeed])
    · rcases h with h | h
      · exact .inl (by simpa [List.count_cons, hfeed] using h)
      · exact .inr (by simp [step, hfeed, h])

theorem Stands.byte_le {chars : List Char} {here : Location} (h : here.Stands chars) :
    here.byte ≤ byteLength chars := by
  obtain ⟨before, behind, rfl, rfl⟩ := h
  rw [byte_origin, byteLength_append]
  omega

/-- A place of a text has the point that the text gives its byte. -/
theorem Stands.point_eq {chars : List Char} {here : Location} (h : here.Stands chars) :
    here.point = (SourceText.ofChars chars).pointAt here.byte := by
  obtain ⟨before, behind, rfl, rfl⟩ := h
  rw [byte_origin, SourceText.pointAt_ofChars]

end Location

/-! ## Rows of bytes -/

theorem takeBytes_zero (chars : List Char) : takeBytes 0 chars = [] := by
  cases chars with
  | nil => rfl
  | cons c rest =>
    have hpos := c.utf8Size_pos
    rw [takeBytes, if_neg (by omega)]

theorem takeBytes_append_of_le {n : Nat} {left : List Char} (h : n ≤ byteLength left)
    (right : List Char) : takeBytes n (left ++ right) = takeBytes n left := by
  induction left generalizing n with
  | nil =>
    obtain rfl : n = 0 := Nat.le_zero.mp h
    rw [takeBytes_zero, takeBytes_zero]
  | cons c rest ih =>
    rw [byteLength_cons] at h
    rw [List.cons_append, takeBytes, takeBytes, ih (by omega)]

theorem takeBytes_append_add (n : Nat) (left right : List Char) :
    takeBytes (byteLength left + n) (left ++ right) = left ++ takeBytes n right := by
  induction left with
  | nil => rw [byteLength_nil, Nat.zero_add, List.nil_append, List.nil_append]
  | cons c rest ih =>
    rw [List.cons_append, takeBytes, byteLength_cons, if_pos (by omega), Nat.add_assoc,
      Nat.add_sub_cancel_left, ih, List.cons_append]

theorem takeBytes_mono {m n : Nat} (h : m ≤ n) (chars : List Char) :
    takeBytes m chars <+: takeBytes n chars := by
  induction chars generalizing m n with
  | nil => exact List.prefix_rfl
  | cons c rest ih =>
    rw [takeBytes, takeBytes]
    by_cases hm : c.utf8Size ≤ m
    · rw [if_pos hm, if_pos (Nat.le_trans hm h)]
      exact List.cons_prefix_cons.mpr ⟨rfl, ih (by omega)⟩
    · rw [if_neg hm]
      exact List.nil_prefix

/-- The row that a byte stands in: the number of line feeds before it. -/
def rowOf (chars : List Char) (byte : Nat) : Nat :=
  (takeBytes byte chars).count '\n'

theorem rowOf_mono (chars : List Char) {first second : Nat} (h : first ≤ second) :
    rowOf chars first ≤ rowOf chars second :=
  (takeBytes_mono h chars).sublist.count_le _

theorem rowOf_of_le {byte : Nat} {left : List Char} (h : byte ≤ byteLength left)
    (right : List Char) : rowOf (left ++ right) byte = rowOf left byte := by
  rw [rowOf, takeBytes_append_of_le h, rowOf]

theorem rowOf_add (byte : Nat) (left right : List Char) :
    rowOf (left ++ right) (byteLength left + byte) = left.count '\n' + rowOf right byte := by
  rw [rowOf, takeBytes_append_add, List.count_append, rowOf]

theorem rowOf_byteLength (left right : List Char) :
    rowOf (left ++ right) (byteLength left) = left.count '\n' := by
  have hrow := rowOf_add 0 left right
  rw [Nat.add_zero] at hrow
  rw [hrow, rowOf, takeBytes_zero]
  rfl

/-- The row of a place of a text is that of its byte. -/
theorem Location.Stands.rowOf_eq {chars : List Char} {here : Location} (h : here.Stands chars) :
    rowOf chars here.byte = here.point.row := by
  obtain ⟨before, behind, rfl, rfl⟩ := h
  rw [Location.byte_origin, rowOf_byteLength, Location.row_advance]
  exact (Nat.zero_add _).symm

namespace Edit

/-! ## Shifting -/

/-- What stands behind the replaced stretch stands where it is shifted to. -/
theorem shift_advance (edit : Edit) (between : List Char) :
    edit.shift (edit.oldEnd.advance between) = edit.newEnd.advance between := by
  have hrow : ∀ here : Location,
      (here.advance between).point.row = here.point.row + between.count '\n' :=
    fun here => here.row_advance between
  have hbyte : ∀ here : Location, (here.advance between).byte = here.byte + byteLength between :=
    fun here => here.byte_advance between
  have hpoint : edit.shiftPoint (edit.oldEnd.advance between).point
      = (edit.newEnd.advance between).point := by
    by_cases hfeeds : between.count '\n' = 0
    · have hcolumn := Location.column_advance hfeeds
      have hsame : (edit.oldEnd.advance between).point.row = edit.oldEnd.point.row := by
        rw [hrow, hfeeds, Nat.add_zero]
      have hnew : (edit.newEnd.advance between).point.row = edit.newEnd.point.row := by
        rw [hrow, hfeeds, Nat.add_zero]
      rw [shiftPoint, if_pos hsame, hcolumn, Nat.add_sub_cancel_left, ← hcolumn, ← hnew]
    · have hlater : (edit.oldEnd.advance between).point.row ≠ edit.oldEnd.point.row := by
        rw [hrow]
        omega
      have hnew : edit.oldEnd.point.row + between.count '\n' + edit.newEnd.point.row
          - edit.oldEnd.point.row = (edit.newEnd.advance between).point.row := by
        rw [hrow]
        omega
      rw [shiftPoint, if_neg hlater, hrow, hnew, Location.column_advance_eq (.inl hfeeds)]
  have hshift : edit.shiftByte (edit.oldEnd.advance between).byte
      = (edit.newEnd.advance between).byte := by
    rw [shiftByte, hbyte, hbyte]
    omega
  rw [shift, hpoint, hshift]

/-- The edit that puts one stretch of a text in the place of another. -/
def replacing (left middle replacement : List Char) : Edit where
  start := Location.origin.advance left
  oldEnd := Location.origin.advance (left ++ middle)
  newEnd := Location.origin.advance (left ++ replacement)

section

variable (left middle replacement : List Char)

@[simp] theorem replacing_start_byte :
    (replacing left middle replacement).start.byte = byteLength left :=
  Location.byte_origin _

@[simp] theorem replacing_oldEnd_byte :
    (replacing left middle replacement).oldEnd.byte = byteLength left + byteLength middle := by
  rw [← byteLength_append]
  exact Location.byte_origin _

@[simp] theorem replacing_newEnd_byte :
    (replacing left middle replacement).newEnd.byte
      = byteLength left + byteLength replacement := by
  rw [← byteLength_append]
  exact Location.byte_origin _

theorem replacing_shift (between : List Char) :
    (replacing left middle replacement).shift
        (Location.origin.advance (left ++ middle ++ between))
      = Location.origin.advance (left ++ replacement ++ between) := by
  rw [Location.advance_append _ (left ++ middle), Location.advance_append _ (left ++ replacement)]
  exact shift_advance (replacing left middle replacement) between

end

/-! ## Checked shifting -/

/-- A difference, if it is not below zero. -/
def minus? (total part : Nat) : Option Nat :=
  if part ≤ total then some (total - part) else none

/-- `shiftByte` where no difference falls below zero. -/
def shiftByte? (edit : Edit) (byte : Nat) : Option Nat :=
  minus? (byte + edit.newEnd.byte) edit.oldEnd.byte

/-- `shiftPoint` where no difference of rows falls below zero. -/
def shiftPoint? (edit : Edit) (point : Point) : Option Point :=
  if point.row = edit.oldEnd.point.row then
    some ⟨edit.newEnd.point.row,
      edit.newEnd.point.column + (point.column - edit.oldEnd.point.column)⟩
  else
    (minus? point.row edit.oldEnd.point.row).map fun rows =>
      ⟨rows + edit.newEnd.point.row, point.column⟩

/-- `shift` where no difference falls below zero. -/
def shift? (edit : Edit) (here : Location) : Option Location :=
  (edit.shiftByte? here.byte).bind fun byte =>
    (edit.shiftPoint? here.point).map fun point => ⟨byte, point⟩

/-- Behind the replaced stretch, on its last row or later, nothing falls below zero. -/
theorem shift?_eq {edit : Edit} {here : Location} (hbyte : edit.oldEnd.byte ≤ here.byte)
    (hrow : edit.oldEnd.point.row ≤ here.point.row) :
    edit.shift? here = some (edit.shift here) := by
  have hshift : edit.shiftByte? here.byte = some (edit.shiftByte here.byte) := by
    rw [shiftByte?, minus?, if_pos (by omega), shiftByte]
  have hpoint : edit.shiftPoint? here.point = some (edit.shiftPoint here.point) := by
    rw [shiftPoint?, shiftPoint]
    split
    · rfl
    · rw [minus?, if_pos hrow, Option.map_some, Nat.sub_add_comm hrow]
  rw [shift?, hshift, hpoint]
  rfl

/-! ## Starts and ends of nodes -/

/-- Where an edit takes the start of a node: a start in the replaced stretch stays where it is as
far as the replacement reaches. -/
def moveStart (edit : Edit) (here : Location) : Location :=
  if here.byte < edit.start.byte then here
  else if edit.oldEnd.byte < here.byte then edit.shift here
  else
    let byte := min edit.newEnd.byte (max edit.start.byte here.byte)
    ⟨byte, if byte = edit.start.byte then edit.start.point else edit.newEnd.point⟩

/-- Where an edit takes the end of a node: an end in the replaced stretch goes to the end of the
replacement. -/
def moveStop (edit : Edit) (here : Location) : Location :=
  if here.byte < edit.start.byte then here
  else if edit.oldEnd.byte < here.byte then edit.shift here
  else edit.newEnd

theorem moveStart_byte (edit : Edit) (here : Location) :
    (edit.moveStart here).byte =
      if here.byte < edit.start.byte then here.byte
      else if edit.oldEnd.byte < here.byte then edit.shiftByte here.byte
      else min edit.newEnd.byte (max edit.start.byte here.byte) := by
  unfold moveStart
  split_ifs <;> rfl

theorem moveStop_byte (edit : Edit) (here : Location) :
    (edit.moveStop here).byte =
      if here.byte < edit.start.byte then here.byte
      else if edit.oldEnd.byte < here.byte then edit.shiftByte here.byte
      else edit.newEnd.byte := by
  unfold moveStop
  split_ifs <;> rfl

section

variable {edit : Edit} {first second : Location}

/-- Both ends of the replacement stand behind its start. -/
def Forward (edit : Edit) : Prop :=
  edit.start.byte ≤ edit.oldEnd.byte ∧ edit.start.byte ≤ edit.newEnd.byte

theorem forward_replacing (left middle replacement : List Char) :
    (replacing left middle replacement).Forward := by
  simp [Forward]

theorem moveStart_le_moveStart (hedit : edit.Forward) (h : first.byte ≤ second.byte) :
    (edit.moveStart first).byte ≤ (edit.moveStart second).byte := by
  obtain ⟨hold, hnew⟩ := hedit
  rw [moveStart_byte, moveStart_byte, shiftByte, shiftByte]
  split_ifs <;> omega

theorem moveStop_le_moveStop (hedit : edit.Forward) (h : first.byte ≤ second.byte) :
    (edit.moveStop first).byte ≤ (edit.moveStop second).byte := by
  obtain ⟨hold, hnew⟩ := hedit
  rw [moveStop_byte, moveStop_byte, shiftByte, shiftByte]
  split_ifs <;> omega

theorem moveStart_le_moveStop (hedit : edit.Forward) (h : first.byte ≤ second.byte) :
    (edit.moveStart first).byte ≤ (edit.moveStop second).byte := by
  obtain ⟨hold, hnew⟩ := hedit
  rw [moveStart_byte, moveStop_byte, shiftByte, shiftByte]
  split_ifs <;> omega

end

section

variable {left middle right : List Char} {here : Location}

/-- Ends are moved to places of the new text. -/
theorem stands_moveStop (replacement : List Char)
    (h : here.Stands (left ++ middle ++ right)) :
    ((replacing left middle replacement).moveStop here).Stands (left ++ replacement ++ right) := by
  obtain ⟨before, behind, hchars, rfl⟩ := h
  have hbyte := Location.byte_origin before
  unfold moveStop
  split_ifs with hbefore hbehind
  · rw [replacing_start_byte, hbyte] at hbefore
    rw [List.append_assoc] at hchars
    obtain ⟨between, rfl, -⟩ := exists_between hchars.symm (Nat.le_of_lt hbefore)
    exact ⟨before, between ++ (replacement ++ right), by simp, rfl⟩
  · rw [replacing_oldEnd_byte, hbyte, ← byteLength_append] at hbehind
    obtain ⟨between, rfl, rfl⟩ := exists_between hchars (Nat.le_of_lt hbehind)
    rw [replacing_shift]
    exact ⟨left ++ replacement ++ between, behind, by simp, rfl⟩
  · exact ⟨left ++ replacement, right, rfl, rfl⟩

/-- A start that stands in a row no later than its point says goes on doing so. -/
theorem rowOf_moveStart (replacement : List Char)
    (h : rowOf (left ++ middle ++ right) here.byte ≤ here.point.row) :
    rowOf (left ++ replacement ++ right) ((replacing left middle replacement).moveStart here).byte
      ≤ ((replacing left middle replacement).moveStart here).point.row := by
  have hstart : (replacing left middle replacement).start.point.row = left.count '\n' :=
    (Location.row_advance _ _).trans (Nat.zero_add _)
  have holdEnd : (replacing left middle replacement).oldEnd.point.row
      = (left ++ middle).count '\n' :=
    (Location.row_advance _ _).trans (Nat.zero_add _)
  have hnewEnd : (replacing left middle replacement).newEnd.point.row
      = (left ++ replacement).count '\n' :=
    (Location.row_advance _ _).trans (Nat.zero_add _)
  unfold moveStart
  split_ifs with hbefore hbehind
  · rw [replacing_start_byte] at hbefore
    rw [List.append_assoc, rowOf_of_le (Nat.le_of_lt hbefore)] at h ⊢
    exact h
  · rw [replacing_oldEnd_byte, ← byteLength_append] at hbehind
    obtain ⟨more, hmore⟩ := Nat.exists_eq_add_of_le (Nat.le_of_lt hbehind)
    rw [hmore, rowOf_add] at h
    have hbyte : (replacing left middle replacement).shiftByte here.byte
        = byteLength (left ++ replacement) + more := by
      rw [shiftByte, hmore, replacing_newEnd_byte, replacing_oldEnd_byte, byteLength_append,
        byteLength_append]
      omega
    show rowOf _ ((replacing left middle replacement).shiftByte here.byte)
      ≤ ((replacing left middle replacement).shiftPoint here.point).row
    rw [hbyte, rowOf_add, shiftPoint]
    split_ifs with hrow
    · simp only
      omega
    · simp only
      omega
  · simp only
    by_cases hsame : min (replacing left middle replacement).newEnd.byte
        (max (replacing left middle replacement).start.byte here.byte)
          = (replacing left middle replacement).start.byte
    · refine Nat.le_of_eq ?_
      rw [if_pos hsame, hsame, hstart, replacing_start_byte, List.append_assoc, rowOf_byteLength]
    · rw [if_neg hsame, hnewEnd, ← rowOf_byteLength _ right]
      refine rowOf_mono _ ?_
      rw [byteLength_append, ← replacing_newEnd_byte left middle replacement]
      exact Nat.min_le_left _ _

end

end Edit

end Azsl
