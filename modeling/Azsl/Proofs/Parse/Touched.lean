/-
Azsl.Proofs.Parse.Touched — the points of a tree right after an edit.

An edit moves the byte and the point of a node's end together. It does not do so with every start:
one that lies in the replaced stretch, or right behind it, and that the replacement reaches past
keeps its byte but gets the point where the replacement ends (`Edit.Strays`). The points of all
other starts are those that the new text gives their bytes (`replace_touched`).
-/
import Azsl.Proofs.Parse.Tracking
import Azsl.Proofs.Text.Positions

namespace Azsl

/-! ## Points of a text -/

/-- A place of a text is the location of its byte. -/
theorem Location.Stands.eq_locationAt {chars : List Char} {here : Location}
    (h : here.Stands chars) : here = (SourceText.ofChars chars).locationAt here.byte := by
  rw [SourceText.locationAt, ← h.point_eq]

/-- Two bytes of a text have different points. -/
theorem SourceText.pointAt_ne {chars : List Char} {first second : Nat} (hlt : first < second)
    (hle : second ≤ byteLength chars) :
    (ofChars chars).pointAt first ≠ (ofChars chars).pointAt second := by
  have hsize : (ofChars chars).size = byteLength chars := rfl
  have hpoints := (pointAmong_lt_iff chars).mpr hlt
  intro heq
  rw [pointAt, pointAt, hsize, Nat.min_eq_left (by omega), Nat.min_eq_left hle] at heq
  have hsame : pointAmong (lineStarts chars) first = pointAmong (lineStarts chars) second := heq
  rw [hsame] at hpoints
  rcases hpoints with hrow | ⟨-, hcolumn⟩
  · exact Nat.lt_irrefl _ hrow
  · exact Nat.lt_irrefl _ hcolumn

namespace Edit

/-! ## Starts that stray -/

/-- A start behind the first byte of the replaced stretch, and no later than its end, that the
replacement reaches past. -/
def Strays (edit : Edit) (here : Location) : Prop :=
  edit.start.byte < here.byte ∧ here.byte ≤ edit.oldEnd.byte ∧ here.byte < edit.newEnd.byte

instance (edit : Edit) (here : Location) : Decidable (edit.Strays here) :=
  inferInstanceAs (Decidable (_ ∧ _))

/-- A start that strays keeps its byte and gets the point of the end of the replacement. -/
theorem Strays.moveStart_eq {edit : Edit} {here : Location} (h : edit.Strays here) :
    edit.moveStart here = ⟨here.byte, edit.newEnd.point⟩ := by
  obtain ⟨hstart, hold, hnew⟩ := h
  have hbyte : min edit.newEnd.byte (max edit.start.byte here.byte) = here.byte := by omega
  have hne : here.byte ≠ edit.start.byte := by omega
  rw [moveStart, if_neg (by omega), if_neg (by omega)]
  simp only [hbyte, if_neg hne]

/-- Any other start goes where the edit starts, or where an end would go. -/
theorem moveStart_cases {edit : Edit} {here : Location} (hedit : edit.Forward)
    (hstrays : ¬ edit.Strays here) :
    edit.moveStart here = edit.start ∨ edit.moveStart here = edit.moveStop here := by
  have hforward := hedit.2
  unfold moveStart moveStop
  by_cases hbefore : here.byte < edit.start.byte
  · exact .inr (by rw [if_pos hbefore, if_pos hbefore])
  · by_cases hbehind : edit.oldEnd.byte < here.byte
    · exact .inr (by rw [if_neg hbefore, if_neg hbefore, if_pos hbehind, if_pos hbehind])
    · rw [if_neg hbefore, if_neg hbefore, if_neg hbehind, if_neg hbehind]
      by_cases hfirst : here.byte = edit.start.byte ∨ edit.newEnd.byte = edit.start.byte
      · have hbyte : min edit.newEnd.byte (max edit.start.byte here.byte) = edit.start.byte := by
          omega
        exact .inl (by simp only [hbyte, if_pos])
      · -- the start lies behind the first byte, and the replacement ends before it or right there
        have hbyte : min edit.newEnd.byte (max edit.start.byte here.byte) = edit.newEnd.byte := by
          unfold Strays at hstrays
          omega
        have hne : edit.newEnd.byte ≠ edit.start.byte := fun heq => hfirst (.inr heq)
        exact .inr (by simp only [hbyte, if_neg hne])

section

variable {left middle right : List Char} {here : Location}

/-- Starts that do not stray are moved to places of the new text. -/
theorem stands_moveStart (replacement : List Char) (h : here.Stands (left ++ middle ++ right))
    (hstrays : ¬ (replacing left middle replacement).Strays here) :
    ((replacing left middle replacement).moveStart here).Stands (left ++ replacement ++ right) := by
  rcases moveStart_cases (forward_replacing ..) hstrays with heq | heq
  · rw [heq]
    exact ⟨left, replacement ++ right, by simp, rfl⟩
  · rw [heq]
    exact stands_moveStop replacement h

/-- A start has the point that the new text gives its byte exactly if it does not stray. -/
theorem moveStart_eq_locationAt_iff (replacement : List Char)
    (h : here.Stands (left ++ middle ++ right)) :
    (replacing left middle replacement).moveStart here
        = (SourceText.ofChars (left ++ replacement ++ right)).locationAt
          ((replacing left middle replacement).moveStart here).byte
      ↔ ¬ (replacing left middle replacement).Strays here := by
  have hend : (replacing left middle replacement).newEnd.Stands (left ++ replacement ++ right) :=
    ⟨left ++ replacement, right, rfl, rfl⟩
  constructor
  · intro heq hstrays
    rw [hstrays.moveStart_eq] at heq
    have hpoint := congrArg Location.point heq
    rw [hend.point_eq] at hpoint
    exact SourceText.pointAt_ne hstrays.2.2 hend.byte_le hpoint.symm
  · intro hstrays
    exact (stands_moveStart replacement h hstrays).eq_locationAt

end

end Edit

/-! ## Trees -/

namespace Revision

/-- What has become of the ends of nodes after one change of a fresh text. Nodes are named by the
way down to them, which the change does not affect. -/
structure Touched (chars : List Char) (change : Range × List Char) : Prop where
  /-- Where a node ends, touched or not, is the location of its byte in the new text. -/
  stop : ∀ path new,
    ((fresh chars).replace change.1 change.2).tree.root.subtree? path = some new →
    new.stop = ((fresh chars).replace change.1 change.2).text.locationAt new.stop.byte
  /-- So is where it starts, unless the start strays. -/
  start : ∀ path old new, (fresh chars).tree.root.subtree? path = some old →
    ((fresh chars).replace change.1 change.2).tree.root.subtree? path = some new →
    (new.start = ((fresh chars).replace change.1 change.2).text.locationAt new.start.byte
      ↔ ¬ ((fresh chars).editOf change).Strays old.start)
  /-- A node whose start strays is touched; it starts at the byte where it did, with the point
  where the replacement ends. -/
  strays : ∀ path old new, (fresh chars).tree.root.subtree? path = some old →
    ((fresh chars).replace change.1 change.2).tree.root.subtree? path = some new →
    ((fresh chars).editOf change).Strays old.start →
    new.hasChanges = true ∧
      new.start = ⟨old.start.byte, ((fresh chars).editOf change).newEnd.point⟩

/-- Every change of every text moves the bytes and the points of nodes together, but for starts
that stray. -/
theorem replace_touched (chars : List Char) (change : Range × List Char) :
    Touched chars change := by
  obtain ⟨left, middle, right, hchars, hedit, hreplace⟩ :=
    exists_replacing (Tracks.fresh chars).indexed change
  have hforward := Edit.forward_replacing left middle change.2
  have htext : ((fresh chars).replace change.1 change.2).text
      = .ofChars (left ++ change.2 ++ right) := by rw [hreplace]
  have hnew : ∀ path, ((fresh chars).replace change.1 change.2).tree.root.subtree? path
      = ((fresh chars).tree.root.subtree? path).map
        (Node.mapLabels (Label.edit (.replacing left middle change.2))) := by
    intro path
    rw [subtree?_replace, hedit]
  have hold : ∀ path old, (fresh chars).tree.root.subtree? path = some old →
      old.Ends (Location.Stands (left ++ middle ++ right)) ∧ old.start.byte ≤ old.stop.byte := by
    intro path old hpath
    have hmem := Node.mem_descendants_of_subtree? hpath
    have hends : old.Ends (Location.Stands chars) := Parse.ends_of_mem hmem
    have hsplit : chars = left ++ middle ++ right := hchars
    rw [hsplit] at hends
    exact ⟨hends, (Parse.spans_of_mem hmem).width⟩
  constructor
  · intro path new hpath
    rw [hnew] at hpath
    obtain ⟨old, hpathOld, rfl⟩ := Option.map_eq_some_iff.mp hpath
    obtain ⟨hends, hwidth⟩ := hold path old hpathOld
    rw [htext, Node.stop_edit hforward hwidth]
    exact (Edit.stands_moveStop change.2 hends.2).eq_locationAt
  · intro path old new hpathOld hpath
    rw [hnew, hpathOld] at hpath
    obtain rfl := Option.some.inj hpath
    obtain ⟨hends, hwidth⟩ := hold path old hpathOld
    rw [htext, hedit, Node.start_edit hforward hwidth]
    exact Edit.moveStart_eq_locationAt_iff change.2 hends.1
  · intro path old new hpathOld hpath hstrays
    rw [hnew, hpathOld] at hpath
    obtain rfl := Option.some.inj hpath
    obtain ⟨-, hwidth⟩ := hold path old hpathOld
    rw [hedit] at hstrays ⊢
    have hmeets : (Edit.replacing left middle change.2).Meets old.label :=
      ⟨Nat.le_trans (Nat.le_of_lt hstrays.1) hwidth, hstrays.2.1⟩
    constructor
    · rw [Node.hasChanges, Node.label_mapLabels]
      exact Label.hasChanges_edit (.inr hmeets)
    · rw [Node.start_edit hforward hwidth]
      exact hstrays.moveStart_eq

/-- A variable gets a longer name. What stands right behind the name starts at byte 7 and in
column 9 then. -/
theorem touched_start_disagrees :
    ¬ ∀ (chars : List Char) (change : Range × List Char),
      ∀ node ∈ ((fresh chars).replace change.1 change.2).tree.root.descendants,
        node.hasChanges = true →
        node.start.point
            = ((fresh chars).replace change.1 change.2).text.pointAt node.start.byte ∧
          node.stop.point
            = ((fresh chars).replace change.1 change.2).text.pointAt node.stop.byte := by
  intro hall
  have hstray : ∃ node ∈ ((fresh "float a;\n".toList).replace ⟨⟨0, 6⟩, ⟨0, 7⟩⟩
      "abc".toList).tree.root.descendants,
      node.hasChanges = true ∧ node.start = ⟨7, ⟨0, 9⟩⟩ := by decide +kernel
  obtain ⟨node, hmem, hchanges, hstart⟩ := hstray
  have hpoint := (hall "float a;\n".toList (⟨⟨0, 6⟩, ⟨0, 7⟩⟩, "abc".toList) node hmem hchanges).1
  rw [hstart] at hpoint
  exact absurd hpoint (by decide +kernel)

end Revision

end Azsl
