/-
Azsl.Proofs.Text.Conversion — editor positions and byte offsets, back and forth.

Every editor position has an offset between two characters, and later positions have no earlier
offsets: within a line because more units are more bytes, across lines because a line ends before
the next one starts. The position of an offset leads back to it, but for an offset right behind
the carriage return that ends a line, which leads to the one before it.
-/
import Azsl.Proofs.Text.Positions
import Azsl.Proofs.Text.Shift

namespace Azsl

/-! ## Lines in order -/

theorem pairwise_lineStartsAfter (offset : Nat) (chars : List Char) :
    (lineStartsAfter offset chars).Pairwise (· < ·) := by
  induction chars generalizing offset with
  | nil => exact .nil
  | cons c rest ih =>
    rw [lineStartsAfter]
    split
    · exact .cons (fun _ hmem => (mem_lineStartsAfter_bounds hmem).1) (ih _)
    · exact ih _

/-- Lines start one behind the other. -/
theorem pairwise_lineStarts (chars : List Char) : (lineStarts chars).Pairwise (· < ·) :=
  .cons (fun _ hmem => (mem_lineStartsAfter_bounds hmem).1) (pairwise_lineStartsAfter 0 chars)

namespace SourceText

/-! ## Units and bytes -/

theorem bytesOfUnits_mono {fewer more : Nat} (h : fewer ≤ more) (chars : List Char) :
    bytesOfUnits fewer chars ≤ bytesOfUnits more chars := by
  induction chars generalizing fewer more with
  | nil => cases fewer <;> simp [bytesOfUnits]
  | cons c rest ih =>
    cases fewer with
    | zero => exact Nat.zero_le _
    | succ m =>
      obtain ⟨n, rfl⟩ : ∃ n, more = n + 1 := Nat.exists_eq_succ_of_ne_zero (by omega)
      have hrest := @ih (m + 1 - editorUnits c) (n + 1 - editorUnits c) (by omega)
      rw [bytesOfUnits, bytesOfUnits]
      omega

theorem bytesOfUnits_le (units : Nat) (chars : List Char) :
    bytesOfUnits units chars ≤ byteLength chars := by
  obtain ⟨left, right, rfl, hbytes⟩ := exists_bytesOfUnits units chars
  rw [hbytes, byteLength_append]
  exact Nat.le_add_right _ _

/-- Enough units are all the bytes. -/
theorem bytesOfUnits_of_le {units : Nat} {chars : List Char} (h : editorLength chars ≤ units) :
    bytesOfUnits units chars = byteLength chars := by
  induction chars generalizing units with
  | nil => cases units <;> rfl
  | cons c rest ih =>
    have hpos := editorUnits_pos c
    rw [editorLength] at h
    obtain ⟨n, rfl⟩ : ∃ n, units = n + 1 := Nat.exists_eq_succ_of_ne_zero (by omega)
    rw [bytesOfUnits, ih (by omega), byteLength_cons]

/-! ## The extent of a line -/

variable {chars : List Char}

theorem byteLength_le_of_prefix {front whole : List Char} (h : front <+: whole) :
    byteLength front ≤ byteLength whole := by
  obtain ⟨more, rfl⟩ := h
  rw [byteLength_append]
  exact Nat.le_add_right _ _

theorem Bound.le_size {offset : Nat} (h : Bound chars offset) : offset ≤ (ofChars chars).size := by
  obtain ⟨left, right, rfl, rfl⟩ := h
  exact byteLength_le_of_prefix (List.prefix_append left right)

/-- The characters of a line go no further than the next line feed. -/
theorem lineChars_prefix_of_feed (before between behind : List Char) :
    (ofChars (before ++ (between ++ '\n' :: behind))).lineChars (byteLength before)
      <+: between := by
  have hline : (between ++ '\n' :: behind).takeWhile (· ≠ '\n') <+: between := by
    have hfeed : ('\n' :: behind).takeWhile (· ≠ '\n') = [] := by simp
    rw [List.takeWhile_append, hfeed, List.append_nil]
    split
    · exact List.prefix_rfl
    · exact List.takeWhile_prefix _
  simp only [lineChars, ofChars, dropBytes_byteLength]
  split
  · exact (List.dropLast_prefix _).trans hline
  · exact hline

/-- A line ends before any later line starts. -/
theorem lineEnd_lt {line later start laterStart : Nat} (hlater : line < later)
    (hstart : (ofChars chars).starts[line]? = some start)
    (hlaterStart : (ofChars chars).starts[later]? = some laterStart) :
    start + byteLength ((ofChars chars).lineChars start) < laterStart := by
  have hordered : start < laterStart := by
    obtain ⟨hline, rfl⟩ := List.getElem?_eq_some_iff.mp hstart
    obtain ⟨hlaterLine, rfl⟩ := List.getElem?_eq_some_iff.mp hlaterStart
    exact List.pairwise_iff_getElem.mp (pairwise_lineStarts chars) _ _ hline hlaterLine hlater
  obtain ⟨before, rest, hchars, rfl⟩ := bound_of_mem_lineStarts (List.mem_of_getElem? hstart)
  -- the later line starts behind a line feed, which stands no earlier than this line starts
  have hmem : laterStart ∈ lineStartsAfter 0 chars := by
    rcases List.mem_cons.mp (List.mem_of_getElem? hlaterStart) with rfl | hmem
    · exact absurd hordered (Nat.not_lt_zero _)
    · exact hmem
  obtain ⟨left, right, hfeed, rfl⟩ := exists_of_mem_lineStartsAfter hmem
  obtain ⟨between, rfl, rfl⟩ := exists_between (hchars.symm.trans hfeed) (by omega)
  have hle := byteLength_le_of_prefix (lineChars_prefix_of_feed before between right)
  rw [hchars, byteLength_append]
  omega

/-- Later positions have no earlier offsets. -/
theorem offsetAt_mono (chars : List Char) {first second : Position} (h : first ≤ second) :
    (ofChars chars).offsetAt first ≤ (ofChars chars).offsetAt second := by
  cases hsecond : (ofChars chars).starts[second.line]? with
  | none =>
    have hend : (ofChars chars).offsetAt second = (ofChars chars).size := by
      simp only [offsetAt, hsecond]
    rw [hend]
    exact (bound_offsetAt chars first).le_size
  | some secondStart =>
    obtain ⟨hline, hcolumn⟩ : first.line ≤ second.line ∧
        (first.line = second.line → first.column ≤ second.column) := by
      have hnot : ¬ (second.line < first.line ∨
        (second.line = first.line ∧ second.column < first.column)) := h
      omega
    obtain ⟨firstStart, hfirst⟩ : ∃ start, (ofChars chars).starts[first.line]? = some start := by
      have hlength := (List.getElem?_eq_some_iff.mp hsecond).1
      exact ⟨_, List.getElem?_eq_getElem (Nat.lt_of_le_of_lt hline hlength)⟩
    simp only [offsetAt, hfirst, hsecond]
    rcases Nat.lt_or_eq_of_le hline with hlt | heq
    · have hend := lineEnd_lt hlt hfirst hsecond
      have hwithin := bytesOfUnits_le first.column ((ofChars chars).lineChars firstStart)
      omega
    · rw [heq, hsecond] at hfirst
      obtain rfl := Option.some.inj hfirst
      exact Nat.add_le_add_left (bytesOfUnits_mono (hcolumn heq) _) _

/-! ## Carriage returns -/

/-- The position behind a carriage return at the end of a line leads in front of it. -/
theorem offsetAt_positionAt_return {front right : List Char}
    (hend : ∀ c ∈ right.head?, c = '\n') :
    (ofChars (front ++ ['\r'] ++ right)).offsetAt
        ((ofChars (front ++ ['\r'] ++ right)).positionAt (byteLength (front ++ ['\r'])))
      = byteLength front := by
  obtain ⟨lines, before, rfl, hbefore, hlast⟩ := exists_lines front
  have hplain : ∀ c ∈ before ++ ['\r'], c ≠ '\n' := by
    intro c hmem
    rcases List.mem_append.mp hmem with hmem | hmem
    · exact hbefore c hmem
    · rw [List.mem_singleton.mp hmem]
      decide
  have hline : (ofChars (lines ++ (before ++ ['\r'] ++ right))).lineChars (byteLength lines)
      = before := by
    have hbehind : right.takeWhile (· ≠ '\n') = [] := by
      cases right with
      | nil => rfl
      | cons c rest => exact List.takeWhile_cons_of_neg (by simpa using hend c rfl)
    have hwhole : (before ++ ['\r'] ++ right).takeWhile (· ≠ '\n') = before ++ ['\r'] := by
      rw [List.takeWhile_append_of_pos (by simpa using hplain), hbehind, List.append_nil]
    simp only [lineChars, ofChars, dropBytes_byteLength, hwhole, List.getLast?_concat, if_true,
      List.dropLast_concat]
  have hchars : lines ++ before ++ ['\r'] ++ right = lines ++ (before ++ ['\r'] ++ right) := by
    simp
  have hbyte : byteLength (lines ++ before ++ ['\r'])
      = byteLength lines + byteLength (before ++ ['\r']) := by
    rw [List.append_assoc, byteLength_append]
  have hunits : editorLength before ≤ editorLength (before ++ ['\r']) := by
    rw [editorLength_append]
    exact Nat.le_add_right _ _
  rw [hchars, hbyte, positionAt_of_lines hplain hlast, offsetAt]
  simp only [starts_getElem? hlast, hline, bytesOfUnits_of_le hunits, byteLength_append]

/-! ## Back and forth -/

/-- A text starts at the very first position. -/
theorem offsetAt_positionAt_zero (chars : List Char) :
    (ofChars chars).offsetAt ((ofChars chars).positionAt 0) = 0 := by
  have hposition : (ofChars chars).positionAt 0 = ⟨0, 0⟩ :=
    @positionAt_of_lines [] [] chars (by simp) rfl
  have hunits : bytesOfUnits 0 ((ofChars chars).lineChars 0) = 0 := by
    cases (ofChars chars).lineChars 0 <;> rfl
  have hstart : (ofChars chars).starts[0]? = some 0 := rfl
  rw [hposition, offsetAt]
  simp only [hstart, hunits]

/-- There is one line start for every line feed. -/
theorem length_lineStartsAfter (chars : List Char) :
    (lineStartsAfter 0 chars).length = chars.count '\n' := by
  have hindex := (@point_advance .origin 0 rfl chars).1
  rw [Location.row_advance] at hindex
  exact (Nat.add_left_cancel hindex).symm

theorem getLast?_lineStarts {lines : List Char} (h : ∀ c ∈ lines.getLast?, c = '\n') :
    (lineStarts lines).getLast? = some (byteLength lines) := by
  rcases List.eq_nil_or_concat lines with rfl | ⟨front, c, rfl⟩
  · rfl
  · obtain rfl := h c (by simp)
    rw [List.concat_eq_append, lineStarts, lineStartsAfter_append, ← List.cons_append,
      Nat.zero_add, lineStartsAfter, if_pos rfl, lineStartsAfter, List.getLast?_concat,
      byteLength_append]
    rfl

/-- How editor positions and byte offsets of a text go with one another. -/
structure Converts (chars : List Char) : Prop where
  /-- Every position, however far off, stands between two characters of the text. -/
  bound : ∀ position, Bound chars ((ofChars chars).offsetAt position)
  within : ∀ position, (ofChars chars).offsetAt position ≤ (ofChars chars).size
  mono : ∀ first second : Position, first ≤ second →
    (ofChars chars).offsetAt first ≤ (ofChars chars).offsetAt second
  /-- The position of an offset counts the lines before it and the units of its line before it. -/
  counts : ∀ lines before right, chars = lines ++ (before ++ right) →
    (∀ c ∈ lines.getLast?, c = '\n') → (∀ c ∈ before, c ≠ '\n') →
    (ofChars chars).positionAt (byteLength lines + byteLength before)
      = ⟨lines.count '\n', editorLength before⟩
  /-- It leads back to the offset, -/
  back : ∀ left right, chars = left ++ right →
    ¬ (left.getLast? = some '\r' ∧ (right = [] ∨ right.head? = some '\n')) →
    (ofChars chars).offsetAt ((ofChars chars).positionAt (byteLength left)) = byteLength left
  /-- but behind a carriage return that ends a line, to the byte before. -/
  backBefore : ∀ left right, chars = left ++ right →
    left.getLast? = some '\r' ∧ (right = [] ∨ right.head? = some '\n') →
    (ofChars chars).offsetAt ((ofChars chars).positionAt (byteLength left))
      = byteLength left - 1

/-- Positions and offsets of every text convert back and forth. -/
theorem ofChars_converts (chars : List Char) : Converts chars where
  bound := bound_offsetAt chars
  within position := (bound_offsetAt chars position).le_size
  mono _ _ := offsetAt_mono chars
  counts := by
    rintro lines before right rfl hlines hbefore
    rw [positionAt_of_lines hbefore (getLast?_lineStarts hlines), length_lineStartsAfter]
  back := by
    rintro left right rfl hend
    rcases List.eq_nil_or_concat left with rfl | ⟨front, c, rfl⟩
    · exact offsetAt_positionAt_zero _
    · rw [List.concat_eq_append] at hend ⊢
      refine offsetAt_positionAt ?_
      by_cases hreturn : c = '\r'
      · cases right with
        | nil => exact absurd ⟨by simp [hreturn], .inl rfl⟩ hend
        | cons next rest =>
          refine .inl ⟨next, rfl, fun hfeed => hend ⟨by simp [hreturn], .inr ?_⟩⟩
          rw [hfeed]
          rfl
      · exact .inr ⟨c, by simp, hreturn⟩
  backBefore := by
    rintro left right rfl ⟨hreturn, hend⟩
    obtain ⟨front, rfl⟩ := List.getLast?_eq_some_iff.mp hreturn
    have hfeed : ∀ c ∈ right.head?, c = '\n' := by
      intro c hmem
      rcases hend with rfl | hhead
      · cases hmem
      · exact Option.some.inj (hmem.symm.trans hhead)
    rw [offsetAt_positionAt_return hfeed, byteLength_append]
    rfl

end SourceText

end Azsl
