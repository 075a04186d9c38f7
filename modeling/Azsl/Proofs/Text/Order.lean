/-
Azsl.Proofs.Text.Order — places of a text in the order that editors count in.

One more character moves the position on: a line feed to the next line, anything else by its units
in the same line. So of two places of a text the one that stands further on has the later position.
-/
import Azsl.Proofs.Text.Conversion

namespace Azsl

namespace Position

theorem le_iff {a b : Position} :
    a ≤ b ↔ a.line < b.line ∨ a.line = b.line ∧ a.column ≤ b.column := by
  show ¬ (b.line < a.line ∨ b.line = a.line ∧ b.column < a.column) ↔ _
  omega

instance : Std.IsLinearOrder Position where
  le_refl a := by
    rw [le_iff]
    omega
  le_trans a b c := by
    simp only [le_iff]
    omega
  le_antisymm a b := by
    obtain ⟨line, column⟩ := a
    obtain ⟨line', column'⟩ := b
    simp only [le_iff, mk.injEq]
    omega
  le_total a b := by
    simp only [le_iff]
    omega

instance : Std.LawfulOrderLT Position where
  lt_iff a b := by
    show a.line < b.line ∨ a.line = b.line ∧ a.column < b.column ↔ _
    simp only [le_iff]
    omega

/-- The position behind one more character. -/
def step (here : Position) (c : Char) : Position :=
  if c = '\n' then ⟨here.line + 1, 0⟩ else ⟨here.line, here.column + editorUnits c⟩

theorem lt_step (here : Position) (c : Char) : here < here.step c := by
  unfold step
  split
  · exact .inl (Nat.lt_succ_self _)
  · exact .inr ⟨rfl, Nat.lt_add_of_pos_right (SourceText.editorUnits_pos c)⟩

end Position

namespace SourceText

theorem positionAt_step (left : List Char) (c : Char) (right : List Char) :
    (ofChars (left ++ c :: right)).positionAt (byteLength (left ++ [c]))
      = ((ofChars (left ++ c :: right)).positionAt (byteLength left)).step c := by
  obtain ⟨lines, before, rfl, hbefore, hlast⟩ := exists_lines left
  have hhere : (ofChars (lines ++ before ++ c :: right)).positionAt (byteLength (lines ++ before))
      = ⟨(lineStartsAfter 0 lines).length, editorLength before⟩ := by
    rw [List.append_assoc, byteLength_append]
    exact positionAt_of_lines hbefore hlast
  rw [hhere, Position.step]
  split
  · rename_i hfeed
    subst hfeed
    have hend : ∀ c ∈ (lines ++ before ++ ['\n']).getLast?, c = '\n' := by simp
    have hnone : ∀ c ∈ ([] : List Char), c ≠ '\n' := by simp
    have hthere := @positionAt_of_lines _ [] right hnone (getLast?_lineStarts hend)
    have hlines : (lines ++ before).count '\n' = lines.count '\n' := by
      rw [List.count_append, List.count_eq_zero.mpr fun hmem => hbefore _ hmem rfl]
      rfl
    rw [length_lineStartsAfter, List.count_append, hlines] at hthere
    rw [length_lineStartsAfter, List.append_cons]
    exact hthere
  · rename_i hplain
    have hall : ∀ d ∈ before ++ [c], d ≠ '\n' := by
      intro d hmem
      rcases List.mem_append.mp hmem with hmem | hmem
      · exact hbefore d hmem
      · rwa [List.mem_singleton.mp hmem]
    have hthere := @positionAt_of_lines _ (before ++ [c]) right hall hlast
    have hunits : editorLength (before ++ [c]) = editorLength before + editorUnits c := by
      rw [editorLength_append]
      rfl
    have hsplit : lines ++ before ++ c :: right = lines ++ (before ++ [c] ++ right) := by simp
    rw [hsplit, List.append_assoc lines, byteLength_append, hthere, hunits]

/-- Further on in a text, positions are later. -/
theorem positionAt_lt {left middle right : List Char} (hne : middle ≠ []) :
    (ofChars (left ++ (middle ++ right))).positionAt (byteLength left)
      < (ofChars (left ++ (middle ++ right))).positionAt (byteLength (left ++ middle)) := by
  induction middle generalizing left with
  | nil => exact absurd rfl hne
  | cons c rest ih =>
    have hstep : (ofChars (left ++ (c :: rest ++ right))).positionAt (byteLength left)
        < (ofChars (left ++ (c :: rest ++ right))).positionAt (byteLength (left ++ [c])) := by
      rw [List.cons_append, positionAt_step]
      exact Position.lt_step _ _
    cases rest with
    | nil => exact hstep
    | cons d more =>
      have hrest := @ih (left ++ [c]) (List.cons_ne_nil _ _)
      rw [List.append_assoc, List.append_assoc] at hrest
      exact Std.lt_trans hstep hrest

end SourceText

namespace Location.Stands

variable {chars : List Char} {first second : Location}

/-- Of two places of a text the one further on has the later position. -/
theorem positionAt_lt (h : first.Stands chars) (h' : second.Stands chars)
    (hlt : first.byte < second.byte) :
    (SourceText.ofChars chars).positionAt first.byte
      < (SourceText.ofChars chars).positionAt second.byte := by
  obtain ⟨left, right, rfl, rfl⟩ := h
  obtain ⟨before, behind, hchars, rfl⟩ := h'
  rw [byte_origin, byte_origin] at hlt ⊢
  obtain ⟨middle, rfl, rfl⟩ := exists_between hchars (Nat.le_of_lt hlt)
  refine SourceText.positionAt_lt ?_
  rintro rfl
  simp at hlt

theorem positionAt_le (h : first.Stands chars) (h' : second.Stands chars)
    (hle : first.byte ≤ second.byte) :
    (SourceText.ofChars chars).positionAt first.byte
      ≤ (SourceText.ofChars chars).positionAt second.byte := by
  rcases Nat.lt_or_eq_of_le hle with hlt | heq
  · exact Std.le_of_lt (h.positionAt_lt h' hlt)
  · rw [heq]
    exact Std.le_refl _

/-- Places of a text with one position are one place. -/
theorem byte_eq (h : first.Stands chars) (h' : second.Stands chars)
    (heq : (SourceText.ofChars chars).positionAt first.byte
      = (SourceText.ofChars chars).positionAt second.byte) : first.byte = second.byte := by
  rcases Nat.lt_trichotomy first.byte second.byte with hlt | hsame | hlt
  · exact absurd heq (Std.ne_of_lt (h.positionAt_lt h' hlt))
  · exact hsame
  · exact absurd heq.symm (Std.ne_of_lt (h'.positionAt_lt h hlt))

end Location.Stands

end Azsl
