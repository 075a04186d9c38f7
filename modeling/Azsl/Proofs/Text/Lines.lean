/-
Azsl.Proofs.Text.Lines — byte offsets, points and editor positions of one text.

The index of lines and the steps of a `Location` count the same rows and columns, so the point
of an offset is where the characters before it lead. An editor position always stands between
two characters, and hence a change replaces whole characters.
-/
import Azsl.Proofs.Text.Bytes
import Azsl.Text.Source

namespace Azsl

/-! ## Line starts -/

theorem lineStartsAfter_append (offset : Nat) (left right : List Char) :
    lineStartsAfter offset (left ++ right)
      = lineStartsAfter offset left ++ lineStartsAfter (offset + byteLength left) right := by
  induction left generalizing offset with
  | nil => rfl
  | cons c rest ih =>
    rw [List.cons_append, lineStartsAfter, lineStartsAfter, byteLength_cons, ← Nat.add_assoc]
    split
    · rename_i hfeed
      rw [ih, List.cons_append, hfeed]
      rfl
    · exact ih _

/-- Every line starts behind a line feed. -/
theorem exists_of_mem_lineStartsAfter {offset start : Nat} {chars : List Char}
    (h : start ∈ lineStartsAfter offset chars) :
    ∃ left right, chars = left ++ '\n' :: right ∧ start = offset + byteLength left + 1 := by
  induction chars generalizing offset with
  | nil => cases h
  | cons c rest ih =>
    rw [lineStartsAfter] at h
    split at h
    · rename_i hfeed
      rcases List.mem_cons.mp h with rfl | h
      · exact ⟨[], rest, by rw [hfeed]; rfl, rfl⟩
      · obtain ⟨left, right, rfl, rfl⟩ := ih h
        refine ⟨c :: left, right, rfl, ?_⟩
        rw [byteLength_cons, hfeed, show ('\n' : Char).utf8Size = 1 from rfl]
        omega
    · obtain ⟨left, right, rfl, rfl⟩ := ih h
      exact ⟨c :: left, right, rfl, by rw [byteLength_cons]; omega⟩

theorem mem_lineStartsAfter_bounds {offset start : Nat} {chars : List Char}
    (h : start ∈ lineStartsAfter offset chars) :
    offset < start ∧ start ≤ offset + byteLength chars := by
  obtain ⟨left, right, rfl, rfl⟩ := exists_of_mem_lineStartsAfter h
  rw [byteLength_append, byteLength_cons, show ('\n' : Char).utf8Size = 1 from rfl]
  omega

/-- Locations count rows and columns as the index of lines does. `start` is where the line
starts that `here` stands in. -/
theorem point_advance {here : Location} {start : Nat}
    (hcolumn : here.point.column + start = here.byte) (chars : List Char) :
    (here.advance chars).point.row = here.point.row + (lineStartsAfter here.byte chars).length ∧
      (here.advance chars).point.column
          + (lineStartsAfter here.byte chars).getLastD start
        = here.byte + byteLength chars := by
  induction chars generalizing here start with
  | nil => exact ⟨rfl, hcolumn⟩
  | cons c rest ih =>
    rw [Location.advance_cons, lineStartsAfter]
    by_cases hfeed : c = '\n'
    · have hbyte : (here.step c).byte = here.byte + 1 := by rw [hfeed]; rfl
      have hpoint : (here.step c).point = ⟨here.point.row + 1, 0⟩ := by simp [Location.step, hfeed]
      obtain ⟨hrow, hlast⟩ := @ih (here.step c) (here.byte + 1) (by rw [hpoint, hbyte]; simp)
      rw [hbyte] at hrow hlast
      rw [if_pos hfeed, List.length_cons, hrow, hpoint, byteLength_cons, List.getLastD_cons, hlast,
        hfeed, show ('\n' : Char).utf8Size = 1 from rfl]
      exact ⟨by simp only; omega, by omega⟩
    · have hbyte : (here.step c).byte = here.byte + c.utf8Size := rfl
      have hpoint : (here.step c).point = ⟨here.point.row, here.point.column + c.utf8Size⟩ := by
        simp [Location.step, hfeed]
      obtain ⟨hrow, hlast⟩ := @ih (here.step c) start (by rw [hpoint, hbyte]; simp only; omega)
      rw [hbyte] at hrow hlast
      rw [if_neg hfeed, hrow, hpoint, byteLength_cons, hlast]
      exact ⟨rfl, by omega⟩

/-- The line starts up to an offset are those of the text before it. -/
theorem takeWhile_lineStarts (left right : List Char) :
    (lineStarts (left ++ right)).takeWhile (· ≤ byteLength left) = lineStarts left := by
  rw [lineStarts, lineStarts, lineStartsAfter_append, Nat.zero_add,
    List.takeWhile_cons_of_pos (by simp), List.takeWhile_append_of_pos ?_]
  · have hright : (lineStartsAfter (byteLength left) right).takeWhile (· ≤ byteLength left)
        = [] := by
      cases hstarts : lineStartsAfter (byteLength left) right with
      | nil => rfl
      | cons start others =>
        have hlt := (mem_lineStartsAfter_bounds (hstarts ▸ List.mem_cons_self :
          start ∈ lineStartsAfter (byteLength left) right)).1
        exact List.takeWhile_cons_of_neg (by simpa using hlt)
    rw [hright, List.append_nil]
  · intro start hmem
    have hle := (mem_lineStartsAfter_bounds hmem).2
    simpa using hle

/-- The point of an offset is where the characters before it lead. -/
theorem pointAmong_lineStarts (left right : List Char) :
    pointAmong (lineStarts (left ++ right)) (byteLength left)
      = (Location.origin.advance left).point := by
  obtain ⟨hrow, hcolumn⟩ := @point_advance .origin 0 rfl left
  simp only [Location.origin, Nat.zero_add] at hrow hcolumn
  have hstart : (lineStarts (left ++ right)).getD (lineStartsAfter 0 left).length 0
      = (lineStartsAfter 0 left).getLastD 0 := by
    have hlast := @List.getLast?_eq_getElem? _ (0 :: lineStartsAfter 0 left)
    rw [List.length_cons, Nat.add_sub_cancel, List.getLast?_cons] at hlast
    rw [lineStarts, lineStartsAfter_append, ← List.cons_append, List.getD_eq_getElem?_getD,
      List.getElem?_append_left (by simp), ← hlast, List.getLastD_eq_getLast?]
    rfl
  have hlength : (lineStarts left).length - 1 = (lineStartsAfter 0 left).length := rfl
  rw [pointAmong, takeWhile_lineStarts]
  simp only [hlength, hstart]
  have hpoint : ∀ point : Point, point = ⟨point.row, point.column⟩ := fun _ => rfl
  rw [hpoint (Location.origin.advance left).point]
  simp only [Location.origin, hrow]
  congr 1
  omega

namespace SourceText

/-! ## Points and locations -/

theorem pointAt_ofChars (left right : List Char) :
    (ofChars (left ++ right)).pointAt (byteLength left)
      = (Location.origin.advance left).point := by
  have hmin : min (byteLength left) (ofChars (left ++ right)).size = byteLength left := by
    rw [size, ofChars, byteLength_append]
    omega
  rw [pointAt, hmin]
  exact pointAmong_lineStarts left right

theorem locationAt_ofChars (left right : List Char) :
    (ofChars (left ++ right)).locationAt (byteLength left) = Location.origin.advance left := by
  rw [locationAt, pointAt_ofChars]
  have hbyte : (Location.origin.advance left).byte = byteLength left := by
    rw [Location.byte_advance]
    exact Nat.zero_add _
  rw [← hbyte]

/-! ## Editor positions -/

/-- An offset that stands between two characters. -/
def Bound (chars : List Char) (offset : Nat) : Prop :=
  ∃ left right, chars = left ++ right ∧ byteLength left = offset

theorem dropBytes_byteLength (left right : List Char) :
    dropBytes (byteLength left) (left ++ right) = right := by
  induction left with
  | nil =>
    cases right with
    | nil => rfl
    | cons c rest =>
      have hpos := c.utf8Size_pos
      rw [List.nil_append, dropBytes, if_neg (by simp only [byteLength_nil]; omega)]
  | cons c rest ih =>
    rw [List.cons_append, dropBytes, byteLength_cons, if_pos (Nat.le_add_right _ _),
      Nat.add_sub_cancel_left, ih]

theorem takeBytes_byteLength (left right : List Char) :
    takeBytes (byteLength left) (left ++ right) = left := by
  have hall := takeBytes_append_dropBytes (byteLength left) (left ++ right)
  rw [dropBytes_byteLength] at hall
  exact List.append_cancel_right hall

/-- Some units of a text are the bytes of whole characters. -/
theorem exists_bytesOfUnits (units : Nat) (chars : List Char) :
    ∃ left right, chars = left ++ right ∧ bytesOfUnits units chars = byteLength left := by
  induction chars generalizing units with
  | nil => exact ⟨[], [], rfl, by cases units <;> rfl⟩
  | cons c rest ih =>
    cases units with
    | zero => exact ⟨[], c :: rest, rfl, rfl⟩
    | succ n =>
      obtain ⟨left, right, hrest, hbytes⟩ := ih (n + 1 - editorUnits c)
      exact ⟨c :: left, right, by rw [hrest]; rfl, by rw [bytesOfUnits, hbytes]; rfl⟩

theorem lineChars_isPrefix (text : SourceText) (start : Nat) :
    text.lineChars start <+: dropBytes start text.chars := by
  have hline := List.takeWhile_prefix (fun c : Char => decide (c ≠ '\n'))
    (l := dropBytes start text.chars)
  unfold lineChars
  simp only
  split
  · exact (List.dropLast_prefix _).trans hline
  · exact hline

theorem bound_of_mem_lineStarts {chars : List Char} {start : Nat} (h : start ∈ lineStarts chars) :
    Bound chars start := by
  rcases List.mem_cons.mp h with rfl | h
  · exact ⟨[], chars, rfl, rfl⟩
  · obtain ⟨left, right, rfl, rfl⟩ := exists_of_mem_lineStartsAfter h
    refine ⟨left ++ ['\n'], right, by simp, ?_⟩
    rw [byteLength_append, Nat.zero_add]
    rfl

/-- An editor position stands between two characters. -/
theorem bound_offsetAt (chars : List Char) (position : Position) :
    Bound chars ((ofChars chars).offsetAt position) := by
  unfold offsetAt
  split
  · exact ⟨chars, [], by simp, rfl⟩
  · rename_i start hstart
    obtain ⟨before, line, hchars, hbefore⟩ :=
      bound_of_mem_lineStarts (List.mem_of_getElem? hstart)
    obtain ⟨rest, hrest⟩ := (ofChars chars).lineChars_isPrefix start
    have hdrop : dropBytes start (ofChars chars).chars = line := by
      show dropBytes start chars = line
      rw [hchars, ← hbefore, dropBytes_byteLength]
    rw [hdrop] at hrest
    obtain ⟨left, right, hline, hbytes⟩ :=
      exists_bytesOfUnits position.column ((ofChars chars).lineChars start)
    refine ⟨before ++ left, right ++ rest, ?_, ?_⟩
    · rw [hchars, ← hrest, hline]
      simp
    · rw [byteLength_append, hbytes, hbefore]

/-- Of two offsets between characters the later one comes behind the earlier one. -/
theorem Bound.split {chars : List Char} {first second : Nat} (h : Bound chars first)
    (h' : Bound chars second) (hle : first ≤ second) :
    ∃ left middle right, chars = left ++ middle ++ right ∧ byteLength left = first ∧
      byteLength (left ++ middle) = second := by
  obtain ⟨left, right, rfl, rfl⟩ := h
  obtain ⟨left', right', hchars, rfl⟩ := h'
  rcases List.append_eq_append_iff.mp hchars with ⟨middle, rfl, rfl⟩ | ⟨middle, rfl, rfl⟩
  · exact ⟨left, middle, right', by simp, rfl, rfl⟩
  · rw [byteLength_append] at hle
    refine ⟨left' ++ middle, [], right, by simp, rfl, ?_⟩
    simp
    omega

/-- A change replaces whole characters, and its edit says which. -/
theorem applyChange_eq (chars : List Char) (range : Range) (replacement : List Char) :
    ∃ left middle right, chars = left ++ middle ++ right ∧
      (ofChars chars).applyChange range replacement =
        (ofChars (left ++ replacement ++ right),
          { start := Location.origin.advance left
            oldEnd := Location.origin.advance (left ++ middle)
            newEnd := Location.origin.advance (left ++ replacement) }) := by
  obtain ⟨left, middle, right, hchars, hstart, hstop⟩ :
      ∃ left middle right, chars = left ++ middle ++ right ∧
        byteLength left = (ofChars chars).offsetAt range.start ∧
        byteLength (left ++ middle) = max ((ofChars chars).offsetAt range.start)
          ((ofChars chars).offsetAt range.stop) := by
    refine (bound_offsetAt chars range.start).split ?_ (Nat.le_max_left _ _)
    rcases Nat.le_total ((ofChars chars).offsetAt range.start)
      ((ofChars chars).offsetAt range.stop) with hle | hle
    · rw [Nat.max_eq_right hle]
      exact bound_offsetAt chars range.stop
    · rw [Nat.max_eq_left hle]
      exact bound_offsetAt chars range.start
  refine ⟨left, middle, right, hchars, ?_⟩
  have htake : takeBytes (byteLength left) (ofChars chars).chars = left := by
    show takeBytes _ chars = left
    rw [hchars, List.append_assoc, takeBytes_byteLength]
  have hdrop : dropBytes (byteLength (left ++ middle)) (ofChars chars).chars = right := by
    show dropBytes _ chars = right
    rw [hchars, dropBytes_byteLength]
  have hold : (ofChars chars).locationAt (byteLength left) = Location.origin.advance left := by
    rw [hchars, List.append_assoc, locationAt_ofChars]
  have holdEnd : (ofChars chars).locationAt (byteLength (left ++ middle))
      = Location.origin.advance (left ++ middle) := by
    rw [hchars, locationAt_ofChars]
  have hnewEnd : (ofChars (left ++ replacement ++ right)).locationAt
      (byteLength left + byteLength replacement)
        = Location.origin.advance (left ++ replacement) := by
    rw [← byteLength_append, locationAt_ofChars]
  rw [← hstart] at hstop
  unfold applyChange
  simp only [← hstart, ← hstop, htake, hdrop, hold, holdEnd, hnewEnd]

end SourceText

end Azsl
