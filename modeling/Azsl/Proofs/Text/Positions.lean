/-
Azsl.Proofs.Text.Positions — from offsets to what editors count, and back.

Points of a text come in the order of their offsets. The editor position of an offset leads back
to the offset, unless the offset stands behind a carriage return at the end of a line: editors
take the carriage return for a part of the line's end.
-/
import Azsl.Proofs.Text.Lines
import Mathlib.Data.List.Induction
import Mathlib.Data.List.TakeWhile

namespace Azsl

/-! ## The order of points -/

theorem length_takeWhile_le (starts : List Nat) {first second : Nat} (h : first ≤ second) :
    (starts.takeWhile (· ≤ first)).length ≤ (starts.takeWhile (· ≤ second)).length := by
  induction starts with
  | nil => exact Nat.le_refl _
  | cons start rest ih =>
    by_cases hfirst : start ≤ first
    · have hsecond : start ≤ second := Nat.le_trans hfirst h
      simpa [List.takeWhile_cons, hfirst, hsecond] using ih
    · simp [List.takeWhile_cons, hfirst]

/-- The line that an offset stands in starts at or before it. -/
theorem rowStart_le (rest : List Nat) (offset : Nat) :
    (0 :: rest).getD (rest.takeWhile (· ≤ offset)).length 0 ≤ offset := by
  have hsplit : 0 :: rest
      = (0 :: rest.takeWhile (· ≤ offset)) ++ rest.dropWhile (· ≤ offset) := by
    rw [List.cons_append, List.takeWhile_append_dropWhile]
  have hle : ∀ start ∈ 0 :: rest.takeWhile (· ≤ offset), start ≤ offset := by
    intro start hmem
    rcases List.mem_cons.mp hmem with rfl | hmem
    · exact Nat.zero_le _
    · simpa using List.mem_takeWhile_imp hmem
  have hlt : (rest.takeWhile (· ≤ offset)).length
      < (0 :: rest.takeWhile (· ≤ offset)).length := Nat.lt_succ_self _
  have hget := congrArg (·[(rest.takeWhile (· ≤ offset)).length]?) hsplit
  simp only [List.getElem?_append_left hlt, List.getElem?_eq_getElem hlt] at hget
  rw [List.getD_eq_getElem?_getD, hget]
  exact hle _ (List.getElem_mem hlt)

theorem pointAmong_lt {rest : List Nat} {first second : Nat} (h : first < second) :
    pointAmong (0 :: rest) first < pointAmong (0 :: rest) second := by
  have hrow : ∀ offset, ((0 :: rest).takeWhile (· ≤ offset)).length - 1
      = (rest.takeWhile (· ≤ offset)).length := by
    intro offset
    rw [List.takeWhile_cons_of_pos (by simp)]
    rfl
  have hle := length_takeWhile_le rest (Nat.le_of_lt h)
  have hstart := rowStart_le rest first
  simp only [pointAmong, hrow]
  rcases Nat.lt_or_eq_of_le hle with hlt | heq
  · exact .inl hlt
  · refine .inr ⟨heq, ?_⟩
    simp only [← heq]
    omega

/-- A point comes before another exactly if its offset does. -/
theorem pointAmong_lt_iff (chars : List Char) {first second : Nat} :
    pointAmong (lineStarts chars) first < pointAmong (lineStarts chars) second
      ↔ first < second := by
  refine ⟨fun h => ?_, pointAmong_lt⟩
  have hirrefl : ∀ point : Point, ¬ point < point := by
    rintro point (hlt | ⟨-, hlt⟩) <;> exact Nat.lt_irrefl _ hlt
  have hasymm : ∀ {a b : Point}, a < b → ¬ b < a := by
    rintro a b (hlt | ⟨heq, hlt⟩) (hlt' | ⟨heq', hlt'⟩) <;> omega
  rcases Nat.lt_trichotomy first second with hlt | rfl | hlt
  · exact hlt
  · exact absurd h (hirrefl _)
  · exact absurd (pointAmong_lt hlt) (hasymm h)

/-! ## Positions -/

namespace SourceText

/-- A text is some whole lines and the beginning of one more. -/
theorem exists_lines (chars : List Char) :
    ∃ lines before, chars = lines ++ before ∧ (∀ c ∈ before, c ≠ '\n') ∧
      (lineStarts lines).getLast? = some (byteLength lines) := by
  induction chars using List.reverseRecOn with
  | nil => exact ⟨[], [], rfl, by simp, rfl⟩
  | append_singleton front c ih =>
    by_cases hfeed : c = '\n'
    · refine ⟨front ++ [c], [], by simp, by simp, ?_⟩
      rw [hfeed, lineStarts, lineStartsAfter_append, ← List.cons_append, Nat.zero_add,
        lineStartsAfter, if_pos rfl, lineStartsAfter, List.getLast?_concat, byteLength_append]
      rfl
    · obtain ⟨lines, before, rfl, hbefore, hlast⟩ := ih
      refine ⟨lines, before ++ [c], by simp, fun other hmem => ?_, hlast⟩
      rcases List.mem_append.mp hmem with hmem | hmem
      · exact hbefore other hmem
      · rwa [List.mem_singleton.mp hmem]

theorem lineStartsAfter_eq_nil {chars : List Char} (h : ∀ c ∈ chars, c ≠ '\n') (offset : Nat) :
    lineStartsAfter offset chars = [] := by
  induction chars generalizing offset with
  | nil => rfl
  | cons c rest ih =>
    rw [lineStartsAfter, if_neg (h c (by simp))]
    exact ih (fun other hmem => h other (List.mem_cons_of_mem _ hmem)) _

theorem editorUnits_pos (c : Char) : 0 < editorUnits c := by
  unfold editorUnits
  split <;> omega

/-- The units up to a place of a line lead to that place. -/
theorem bytesOfUnits_editorLength (before more : List Char) :
    bytesOfUnits (editorLength before) (before ++ more) = byteLength before := by
  induction before with
  | nil => cases more <;> rfl
  | cons c rest ih =>
    have hpos := editorUnits_pos c
    obtain ⟨units, hunits⟩ : ∃ units, editorLength (c :: rest) = units + 1 :=
      Nat.exists_eq_succ_of_ne_zero (by rw [editorLength]; omega)
    have hrest : units + 1 - editorUnits c = editorLength rest := by
      rw [← hunits, editorLength]
      omega
    rw [hunits, List.cons_append, bytesOfUnits, hrest, ih, byteLength_cons]

/-- Bytes of a character and what follows it. -/
theorem exists_byteLength_cons (c : Char) (rest : List Char) :
    ∃ n, byteLength (c :: rest) = n + 1 ∧ c.utf8Size ≤ n + 1 ∧
      n + 1 - c.utf8Size = byteLength rest := by
  have hpos := c.utf8Size_pos
  obtain ⟨n, hn⟩ : ∃ n, byteLength (c :: rest) = n + 1 :=
    Nat.exists_eq_succ_of_ne_zero (by rw [byteLength_cons]; omega)
  rw [byteLength_cons] at hn
  exact ⟨n, hn, by omega, by omega⟩

theorem dropBytes?_byteLength (left right : List Char) :
    dropBytes? (byteLength left) (left ++ right) = some right := by
  induction left with
  | nil => cases right <;> rfl
  | cons c rest ih =>
    obtain ⟨n, hn, hle, hrest⟩ := exists_byteLength_cons c rest
    rw [hn, List.cons_append, dropBytes?, if_pos hle, hrest, ih]

theorem takeBytes?_byteLength (left right : List Char) :
    takeBytes? (byteLength left) (left ++ right) = some left := by
  induction left with
  | nil => cases right <;> rfl
  | cons c rest ih =>
    obtain ⟨n, hn, hle, hrest⟩ := exists_byteLength_cons c rest
    rw [hn, List.cons_append, takeBytes?, if_pos hle, hrest, ih]
    rfl

/-- The characters between two places of a text. -/
theorem sliceBytes?_byteLength (left middle right : List Char) :
    sliceBytes? (left ++ (middle ++ right)) (byteLength left) (byteLength left + byteLength middle)
      = some middle := by
  rw [sliceBytes?, if_neg (by omega), dropBytes?_byteLength, Option.bind_some,
    Nat.add_sub_cancel_left, takeBytes?_byteLength]

variable {lines before right : List Char}

/-- Where the line starts that comes behind some whole lines. -/
theorem starts_getElem? (hlast : (lineStarts lines).getLast? = some (byteLength lines))
    (rest : List Char) :
    (ofChars (lines ++ rest)).starts[(lineStartsAfter 0 lines).length]?
      = some (byteLength lines) := by
  have hlength : (lineStartsAfter 0 lines).length < (0 :: lineStartsAfter 0 lines).length :=
    Nat.lt_succ_self _
  show (lineStarts (lines ++ rest))[(lineStartsAfter 0 lines).length]? = _
  rw [lineStarts, lineStartsAfter_append, ← List.cons_append, List.getElem?_append_left hlength,
    ← hlast, List.getLast?_eq_getElem?]
  rfl

/-- The row and the column of a place in a line that comes behind some whole lines. -/
theorem point_of_lines (hbefore : ∀ c ∈ before, c ≠ '\n')
    (hlast : (lineStarts lines).getLast? = some (byteLength lines)) :
    (Location.origin.advance (lines ++ before)).point
      = ⟨(lineStartsAfter 0 lines).length, byteLength before⟩ := by
  obtain ⟨hrow, hcolumn⟩ := @point_advance .origin 0 rfl (lines ++ before)
  rw [lineStartsAfter_append, lineStartsAfter_eq_nil hbefore, List.append_nil] at hrow hcolumn
  simp only [Location.origin, Nat.zero_add, byteLength_append] at hrow hcolumn
  have hstart : (lineStartsAfter 0 lines).getLastD 0 = byteLength lines := by
    rw [lineStarts, List.getLast?_cons] at hlast
    rw [List.getLastD_eq_getLast?]
    exact Option.some.inj hlast
  have hpoint : ∀ point : Point, point = ⟨point.row, point.column⟩ := fun _ => rfl
  rw [hpoint (Location.origin.advance (lines ++ before)).point]
  simp only [Location.origin, hrow, Point.mk.injEq, true_and]
  omega

theorem positionAt_of_lines (hbefore : ∀ c ∈ before, c ≠ '\n')
    (hlast : (lineStarts lines).getLast? = some (byteLength lines)) :
    (ofChars (lines ++ (before ++ right))).positionAt (byteLength lines + byteLength before)
      = ⟨(lineStartsAfter 0 lines).length, editorLength before⟩ := by
  have hpoint := pointAt_ofChars (lines ++ before) right
  rw [point_of_lines hbefore hlast, byteLength_append, List.append_assoc] at hpoint
  have hmin : min (byteLength lines + byteLength before)
      (ofChars (lines ++ (before ++ right))).size = byteLength lines + byteLength before := by
    rw [size, ofChars, byteLength_append, byteLength_append]
    omega
  have hslice : sliceBytes? (ofChars (lines ++ (before ++ right))).chars (byteLength lines)
      (byteLength lines + byteLength before) = some before := sliceBytes?_byteLength _ _ _
  rw [positionAt, hpoint, positionOf]
  simp only [starts_getElem? hlast]
  rw [positionInRow]
  simp only [hmin, hslice]

/-- A line goes on behind every place in it, but for a carriage return at its end. -/
theorem lineChars_of_lines (hbefore : ∀ c ∈ before, c ≠ '\n')
    (hend : (∃ c ∈ right.head?, c ≠ '\n') ∨ ∃ c ∈ (lines ++ before).getLast?, c ≠ '\r') :
    ∃ more, (ofChars (lines ++ (before ++ right))).lineChars (byteLength lines)
      = before ++ more := by
  have hline : (dropBytes (byteLength lines) (lines ++ (before ++ right))).takeWhile (· ≠ '\n')
      = before ++ right.takeWhile (· ≠ '\n') := by
    rw [dropBytes_byteLength, List.takeWhile_append_of_pos (by simpa using hbefore)]
  simp only [lineChars, ofChars, hline]
  split
  · rename_i hreturn
    rcases List.eq_nil_or_concat (right.takeWhile (· ≠ '\n')) with hnil | ⟨front, c, hmore⟩
    · -- the line ends right here, so no carriage return may stand before
      rw [hnil, List.append_nil] at hreturn
      rcases hend with ⟨c, hhead, hne⟩ | ⟨c, hlast, hne⟩
      · obtain ⟨tail, rfl⟩ := List.head?_eq_some_iff.mp hhead
        simp [hne] at hnil
      · rw [List.getLast?_append, hreturn, Option.some_or, Option.mem_some_iff] at hlast
        exact absurd hlast.symm hne
    · exact ⟨front, by rw [hmore, List.concat_eq_append, ← List.append_assoc, List.dropLast_concat]⟩
  · exact ⟨_, rfl⟩

/-- The position of an offset leads back to the offset, unless the offset stands behind a carriage
return at the end of a line. -/
theorem offsetAt_positionAt {left right : List Char}
    (hend : (∃ c ∈ right.head?, c ≠ '\n') ∨ ∃ c ∈ left.getLast?, c ≠ '\r') :
    (ofChars (left ++ right)).offsetAt ((ofChars (left ++ right)).positionAt (byteLength left))
      = byteLength left := by
  obtain ⟨lines, before, rfl, hbefore, hlast⟩ := exists_lines left
  obtain ⟨more, hmore⟩ := lineChars_of_lines hbefore hend
  rw [List.append_assoc, byteLength_append, positionAt_of_lines hbefore hlast, offsetAt]
  simp only [starts_getElem? hlast, hmore, bytesOfUnits_editorLength]

end SourceText

end Azsl
