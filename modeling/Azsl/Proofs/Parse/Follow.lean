/-
Azsl.Proofs.Parse.Follow — declarations that no edit touches follow their text.

An edit marks every node that it meets or touches. What lies before the edit stays, and what
lies behind it moves with its text. So a declaration that is not marked still stands where its
text stands, whatever edits have been made since it was parsed.
-/
import Azsl.Proofs.Parse.Portable

namespace Azsl

/-! ## Labels of a whole node -/

namespace Node

mutual

theorem mapLabels_congr {f g : Label → Label} :
    ∀ {node : Node}, (∀ below ∈ node.descendants, f below.label = g below.label) →
      node.mapLabels f = node.mapLabels g
  | mk label children, h => by
    have hlabel : f label = g label := h (mk label children) List.mem_cons_self
    rw [mapLabels, mapLabels, hlabel,
      mapLabelsAll_congr fun below hmem => h below (List.mem_cons_of_mem _ hmem)]

theorem mapLabelsAll_congr {f g : Label → Label} :
    ∀ {nodes : List Node}, (∀ below ∈ descendantsAll nodes, f below.label = g below.label) →
      mapLabelsAll f nodes = mapLabelsAll g nodes
  | [], _ => rfl
  | first :: rest, h => by
    rw [mapLabelsAll, mapLabelsAll,
      mapLabels_congr fun below hmem => h below (List.mem_append_left _ hmem),
      mapLabelsAll_congr fun below hmem => h below (List.mem_append_right _ hmem)]

end

mutual

theorem mapLabels_mapLabels (f g : Label → Label) :
    ∀ node : Node, (node.mapLabels g).mapLabels f = node.mapLabels fun label => f (g label)
  | mk label children => by
    rw [mapLabels, mapLabels, mapLabels, mapLabelsAll_mapLabelsAll f g children]

theorem mapLabelsAll_mapLabelsAll (f g : Label → Label) :
    ∀ nodes : List Node,
      mapLabelsAll f (mapLabelsAll g nodes) = mapLabelsAll (fun label => f (g label)) nodes
  | [] => rfl
  | first :: rest => by
    rw [mapLabelsAll, mapLabelsAll, mapLabelsAll, mapLabels_mapLabels f g first,
      mapLabelsAll_mapLabelsAll f g rest]

end

mutual

theorem mapLabels_id : ∀ node : Node, node.mapLabels id = node
  | mk label children => by rw [mapLabels, mapLabelsAll_id children, id]

theorem mapLabelsAll_id : ∀ nodes : List Node, mapLabelsAll id nodes = nodes
  | [] => rfl
  | first :: rest => by rw [mapLabelsAll, mapLabels_id first, mapLabelsAll_id rest]

end

mutual

theorem descendants_mapLabels (f : Label → Label) :
    ∀ node : Node, (node.mapLabels f).descendants = node.descendants.map (mapLabels f)
  | mk label children => by
    rw [mapLabels, descendants, descendants, descendantsAll_mapLabelsAll f children,
      List.map_cons, mapLabels]

theorem descendantsAll_mapLabelsAll (f : Label → Label) :
    ∀ nodes : List Node,
      descendantsAll (mapLabelsAll f nodes) = (descendantsAll nodes).map (mapLabels f)
  | [] => rfl
  | first :: rest => by
    rw [mapLabelsAll, descendantsAll, descendantsAll, descendants_mapLabels f first,
      descendantsAll_mapLabelsAll f rest, List.map_append]

end

theorem label_mapLabels (f : Label → Label) (node : Node) :
    (node.mapLabels f).label = f node.label := by
  cases node
  rfl

theorem children_mapLabels (f : Label → Label) (node : Node) :
    (node.mapLabels f).children = node.children.map (mapLabels f) := by
  cases node
  rw [mapLabels]
  exact mapLabelsAll_eq_map f _

theorem lift_lift (d e : Nat) (node : Node) : (node.lift d).lift e = node.lift (d + e) := by
  rw [lift, lift, mapLabels_mapLabels, lift]
  congr 1
  funext label
  simp only [Label.lift, Location.lift, Nat.add_assoc]

/-- Nodes that are alike are alike by smaller shifts too. -/
theorem lift_cancel {a b : Node} {d e : Nat} (shift : Nat)
    (h : a.lift (d + shift) = b.lift (e + shift)) : a.lift d = b.lift e := by
  have hback : ∀ (n : Nat) (node : Node),
      (node.lift (n + shift)).mapLabels (fun label => { label with
        start := ⟨label.start.byte - shift, label.start.point⟩
        stop := ⟨label.stop.byte - shift, label.stop.point⟩ }) = node.lift n := by
    intro n node
    rw [lift, mapLabels_mapLabels, lift]
    congr 1
    funext label
    simp only [Label.lift, Location.lift, ← Nat.add_assoc, Nat.add_sub_cancel]
  rw [← hback, h, hback]

/-! ## Spans -/

/-- A node and all below it stand between two bytes. -/
def Within (lo hi : Nat) (node : Node) : Prop :=
  ∀ below ∈ node.descendants,
    lo ≤ below.start.byte ∧ below.start.byte ≤ below.stop.byte ∧ below.stop.byte ≤ hi

theorem Within.weaken {lo hi lo' hi' : Nat} {node : Node} (h : node.Within lo hi)
    (hlo : lo' ≤ lo) (hhi : hi ≤ hi') : node.Within lo' hi' := by
  intro below hmem
  have hbelow := h below hmem
  omega

theorem within_lift {lo hi : Nat} (shift : Nat) {node : Node} :
    (node.lift shift).Within (lo + shift) (hi + shift) ↔ node.Within lo hi := by
  unfold Within
  rw [lift, descendants_mapLabels, List.forall_mem_map]
  refine forall₂_congr fun below _ => ?_
  have hstart := congrArg (·.byte) (start_lift shift below)
  have hstop := congrArg (·.byte) (stop_lift shift below)
  simp only [lift, Location.lift] at hstart hstop
  omega

theorem within_leaf {kind : NodeKind} {start stop : Location} (h : start.byte ≤ stop.byte) :
    (leaf kind start stop).Within start.byte stop.byte := by
  intro below hmem
  obtain rfl : below = leaf kind start stop := by
    simpa [leaf, build, descendants, descendantsAll] using hmem
  exact ⟨Nat.le_refl _, h, Nat.le_refl _⟩

/-- A node over a row of children has the span of the row. -/
theorem within_ofChildren {lo hi : Nat} {kind : NodeKind} {children : List Node}
    (hrow : Row lo hi children) (hne : children ≠ [])
    (h : ∀ child ∈ children, child.Within child.start.byte child.stop.byte) :
    (ofChildren kind children).Within (ofChildren kind children).start.byte
      (ofChildren kind children).stop.byte := by
  intro below hmem
  rw [descendants_eq, List.mem_cons] at hmem
  rcases hmem with rfl | hmem
  · exact ⟨Nat.le_refl _, (hrow.bounds hne).2.1, Nat.le_refl _⟩
  · obtain ⟨child, hchild, hbelow⟩ := List.mem_flatMap.mp hmem
    obtain ⟨left, right, hsplit⟩ := List.append_of_mem (show child ∈ children from hchild)
    have hstart : (ofChildren kind children).start.byte ≤ child.start.byte := by
      cases left with
      | nil =>
        rw [hsplit]
        exact Nat.le_refl _
      | cons first left =>
        rw [hsplit] at hrow ⊢
        have hle := hrow.2.2.le_start
        exact Nat.le_trans hrow.2.1 hle
    have hstop : child.stop.byte ≤ (ofChildren kind children).stop.byte := by
      obtain ⟨mid, hdrop⟩ := (hsplit ▸ hrow).drop
      rw [← List.append_nil (child :: right)] at hdrop
      have hlast : children.getLast? = some ((child :: right).getLast (by simp)) := by
        rw [hsplit, List.getLast?_append_of_ne_nil _ (by simp), List.getLast?_eq_some_getLast]
      rw [stop_ofChildren kind hlast]
      cases right with
      | nil => exact Nat.le_refl _
      | cons second right =>
        obtain ⟨hlo, hwidth, -⟩ := InOrder.group hdrop.2.2
        rw [List.getLast_cons_cons]
        exact Nat.le_trans hlo hwidth
    have hwithin := (h child hchild).weaken hstart hstop
    exact hwithin below hbelow

end Node

/-- Nodes that cover tokens contain all that is below them. -/
theorem Covers.within {textEnd : Location} {lo hi : Nat} {nodes : List Node}
    {tokens : List Token} (h : Covers textEnd lo hi nodes tokens) :
    ∀ node ∈ nodes, node.Within node.start.byte node.stop.byte := by
  have hcons : ∀ {first : Node} {rest : List Node},
      first.Within first.start.byte first.stop.byte →
      (∀ node ∈ rest, node.Within node.start.byte node.stop.byte) →
      ∀ node ∈ first :: rest, node.Within node.start.byte node.stop.byte := by
    intro first rest hfirst hrest node hmem
    rcases List.mem_cons.mp hmem with rfl | hmem
    · exact hfirst
    · exact hrest node hmem
  induction h with
  | nil => simp
  | trivia _ _ hwidth _ ih => exact hcons (Node.within_leaf hwidth) ih
  | leaf _ _ _ _ hwidth _ ih => exact hcons (Node.within_leaf hwidth) ih
  | string _ hquoted _ _ ih =>
    refine hcons (Node.within_ofChildren (Node.row_stringParts hquoted)
      (by simp [Production.stringParts]) fun part hpart => ?_) ih
    obtain ⟨hleaf, hformed⟩ := @Node.formed_of_mem_stringParts textEnd _ hquoted _ hpart
    intro below hmem
    rw [Node.descendants_eq, hleaf] at hmem
    obtain rfl := List.mem_singleton.mp hmem
    exact ⟨Nat.le_refl _, hformed.width, Nat.le_refl _⟩
  | composite _ hne hinner _ ih₁ ih₂ =>
    exact hcons (Node.within_ofChildren hinner.row hne ih₁) ih₂
  | missing _ _ ih => exact hcons (Node.within_leaf (Nat.le_refl _)) ih

/-! ## Edits -/

/-- An edit says how one text became another: a stretch of it was replaced. -/
structure Edit.Describes (edit : Edit) (left middle replacement : List Char) : Prop where
  start : edit.start.byte = byteLength left
  oldEnd : edit.oldEnd.byte = byteLength (left ++ middle)
  newEnd : edit.newEnd.byte = byteLength (left ++ replacement)

namespace Label

variable {edit : Edit} {label : Label}

theorem edit_of_before (h : label.stop.byte < edit.start.byte) : label.edit edit = label :=
  if_pos h

theorem edit_of_behind (hedit : edit.start.byte ≤ edit.oldEnd.byte)
    (hwidth : label.start.byte ≤ label.stop.byte) (h : edit.oldEnd.byte < label.start.byte) :
    label.edit edit = { label with
      start := edit.shift label.start
      stop := edit.shift label.stop } := by
  rw [Label.edit, if_neg (by omega), if_pos h]

/-- A label that is not marked after an edit lies before it or behind it. -/
theorem apart_of_hasChanges_edit (h : (label.edit edit).hasChanges = false) :
    label.hasChanges = false ∧
      (label.stop.byte < edit.start.byte ∨ edit.oldEnd.byte < label.start.byte) := by
  unfold Label.edit at h
  split_ifs at h with hbefore hbehind
  · exact ⟨h, .inl hbefore⟩
  · exact ⟨h, .inr hbehind⟩

end Label

namespace Node

variable {edit : Edit} {node : Node}

/-- A node before an edit stays. -/
theorem edit_of_before (hwithin : node.Within node.start.byte node.stop.byte)
    (h : node.stop.byte < edit.start.byte) : node.mapLabels (Label.edit edit) = node := by
  have hsame : node.mapLabels (Label.edit edit) = node.mapLabels id := by
    refine mapLabels_congr fun below hmem => Label.edit_of_before ?_
    have hstop := (hwithin below hmem).2.2
    exact Nat.lt_of_le_of_lt hstop h
  rw [hsame, mapLabels_id]

/-- A node behind an edit moves by the difference in length. -/
theorem edit_of_behind (hedit : edit.start.byte ≤ edit.oldEnd.byte)
    (hwithin : node.Within node.start.byte node.stop.byte)
    (h : edit.oldEnd.byte < node.start.byte) :
    (node.mapLabels (Label.edit edit)).lift edit.oldEnd.byte = node.lift edit.newEnd.byte := by
  rw [lift, mapLabels_mapLabels, lift]
  refine mapLabels_congr fun below hmem => ?_
  obtain ⟨hstart, hwidth, -⟩ := hwithin below hmem
  have hbehind := Nat.lt_of_lt_of_le h hstart
  rw [Label.edit_of_behind hedit hwidth hbehind]
  have hshift : ∀ here : Location, edit.oldEnd.byte ≤ here.byte →
      (edit.shift here).lift edit.oldEnd.byte = here.lift edit.newEnd.byte := by
    intro here hle
    rw [Location.lift_eq_iff]
    show here.byte + edit.newEnd.byte - edit.oldEnd.byte + edit.oldEnd.byte = _
    omega
  have hstart : edit.oldEnd.byte ≤ below.label.start.byte := Nat.le_of_lt hbehind
  have hstop : edit.oldEnd.byte ≤ below.label.stop.byte := Nat.le_trans hstart hwidth
  simp only [Label.lift, hshift _ hstart, hshift _ hstop]

end Node

/-! ## Declarations in an edited text -/

namespace Parse

/-- A node stands in a text just as it once stood in a text that it was parsed from. -/
structure Standing (chars : List Char) (node : Node) (before : List Char) (row : List Piece)
    (behind : List Char) : Prop where
  text : chars = before ++ Piece.text row ++ behind
  parsed : ∃ chars₀ node₀ past state last left before₀,
    Taken chars₀ node₀ past state last left ∧ Text before₀ row left ∧
      node₀.lift (byteLength before) = node.lift (byteLength before₀)

/-- If no edit touched it since it was parsed, a declaration that closes itself and has no
error stands in the text. -/
def Follows (chars : List Char) (node : Node) : Prop :=
  node.hasChanges = false → node.hasError = false → node.kind.isSelfDelimiting = true →
    ∃ before row behind, Standing chars node before row behind

theorem follows_of_mem_parse {chars : List Char} {node : Node}
    (hmem : node ∈ (parse chars none).root.children) : Follows chars node := by
  intro _ herror hkind
  obtain ⟨past, state, last, left, htaken⟩ :=
    (known_children chars node hmem herror hkind).taken herror hkind
  obtain ⟨before, row, behind, hchars, htext⟩ := htaken.text
  exact ⟨before, row, behind, hchars, chars, node, past, state, last, left, before, htaken, htext,
    rfl⟩

namespace Standing

variable {chars before behind : List Char} {node : Node} {row : List Piece}

theorem span (h : Standing chars node before row behind) :
    node.start.byte = byteLength before ∧
      node.stop.byte = byteLength before + byteLength (Piece.text row) := by
  obtain ⟨chars₀, node₀, past, state, last, left, before₀, htaken, htext, hlift⟩ := h.parsed
  obtain ⟨hstart₀, hstop₀⟩ := htaken.span htext
  have hstart := congrArg (·.start.byte) hlift
  have hstop := congrArg (·.stop.byte) hlift
  simp only [Node.start_lift, Node.stop_lift, Location.lift] at hstart hstop
  omega

theorem within (h : Standing chars node before row behind) :
    node.Within node.start.byte node.stop.byte := by
  obtain ⟨hstart, hstop⟩ := h.span
  obtain ⟨chars₀, node₀, past, state, last, left, before₀, htaken, htext, hlift⟩ := h.parsed
  obtain ⟨hstart₀, hstop₀⟩ := htaken.span htext
  obtain ⟨lo, hi, hcovers⟩ := htaken.covers
  have hwithin := hcovers.within node₀ List.mem_cons_self
  rw [← Node.within_lift (byteLength before), hlift] at hwithin
  rw [← Node.within_lift (byteLength before₀), hstart, hstop]
  rw [hstart₀, hstop₀] at hwithin
  exact hwithin.weaken (by omega) (by omega)

/-- What lies before an edit still stands in the edited text. -/
theorem edit_before {edit : Edit} {left middle right : List Char} (replacement : List Char)
    (h : Standing (left ++ middle ++ right) node before row behind)
    (hedit : edit.start.byte = byteLength left) (hbefore : node.stop.byte < edit.start.byte) :
    ∃ behind', Standing (left ++ replacement ++ right) (node.mapLabels (Label.edit edit)) before row
      behind' := by
  rw [Node.edit_of_before h.within hbefore]
  obtain ⟨-, hstop⟩ := h.span
  obtain ⟨between, hleft, -⟩ : ∃ between, left = before ++ Piece.text row ++ between ∧
      behind = between ++ (middle ++ right) := by
    rcases List.append_eq_append_iff.mp ((List.append_assoc ..).symm.trans h.text) with
      ⟨between, hall, -⟩ | ⟨between, hleft, hbehind⟩
    · have hlength := congrArg byteLength hall
      simp only [byteLength_append] at hlength
      omega
    · exact ⟨between, hleft, hbehind⟩
  refine ⟨between ++ replacement ++ right, ?_, h.parsed⟩
  rw [hleft]
  simp

/-- What lies behind an edit has moved with the edited text. -/
theorem edit_behind {edit : Edit} {left middle replacement right : List Char}
    (h : Standing (left ++ middle ++ right) node before row behind)
    (hedit : edit.Describes left middle replacement)
    (hbehind : edit.oldEnd.byte < node.start.byte) :
    ∃ before', Standing (left ++ replacement ++ right) (node.mapLabels (Label.edit edit)) before'
      row behind := by
  obtain ⟨hstart, -⟩ := h.span
  obtain ⟨between, rfl, hright⟩ : ∃ between, before = left ++ middle ++ between ∧
      right = between ++ (Piece.text row ++ behind) := by
    rcases List.append_eq_append_iff.mp (h.text.trans (List.append_assoc ..)) with
      ⟨between, hbefore, hright⟩ | ⟨between, hleft, -⟩
    · exact ⟨between, hbefore, hright⟩
    · have hlength := congrArg byteLength hleft
      rw [byteLength_append _ between, ← hedit.oldEnd] at hlength
      omega
  have hle : edit.start.byte ≤ edit.oldEnd.byte := by
    rw [hedit.start, hedit.oldEnd, byteLength_append]
    omega
  have hmoved := Node.edit_of_behind hle h.within hbehind
  refine ⟨left ++ replacement ++ between, by rw [hright]; simp, ?_⟩
  obtain ⟨chars₀, node₀, past, state, last, taken, before₀, htaken, htext, hlift⟩ := h.parsed
  refine ⟨chars₀, node₀, past, state, last, taken, before₀, htaken, htext, ?_⟩
  -- Both sides are lifted further by the end of the replaced stretch, to use the lifts at hand.
  refine Node.lift_cancel edit.oldEnd.byte ?_
  have hlengths : byteLength (left ++ replacement ++ between) + edit.oldEnd.byte
      = byteLength (left ++ middle ++ between) + edit.newEnd.byte := by
    rw [hedit.oldEnd, hedit.newEnd]
    simp only [byteLength_append]
    omega
  calc node₀.lift (byteLength (left ++ replacement ++ between) + edit.oldEnd.byte)
      = (node.lift (byteLength before₀)).lift edit.newEnd.byte := by
        rw [hlengths, ← Node.lift_lift, hlift]
    _ = (node.lift edit.newEnd.byte).lift (byteLength before₀) := by
        rw [Node.lift_lift, Node.lift_lift, Nat.add_comm]
    _ = (node.mapLabels (Label.edit edit)).lift (byteLength before₀ + edit.oldEnd.byte) := by
        rw [← hmoved, Node.lift_lift, Nat.add_comm]

end Standing

/-- A declaration follows its text through an edit. -/
theorem Follows.edit {node : Node} {edit : Edit} {left middle replacement right : List Char}
    (h : Follows (left ++ middle ++ right) node) (hedit : edit.Describes left middle replacement) :
    Follows (left ++ replacement ++ right) (node.mapLabels (Label.edit edit)) := by
  intro hchanges herror hkind
  have hlabel := Node.label_mapLabels (Label.edit edit) node
  rw [Node.hasChanges, hlabel] at hchanges
  obtain ⟨hunchanged, hapart⟩ := Label.apart_of_hasChanges_edit hchanges
  have hsame : (node.label.edit edit).hasError = node.hasError ∧
      (node.label.edit edit).kind = node.kind := by
    unfold Label.edit
    split_ifs <;> exact ⟨rfl, rfl⟩
  rw [Node.hasError, hlabel, hsame.1] at herror
  rw [Node.kind, hlabel, hsame.2] at hkind
  obtain ⟨before, row, behind, hstanding⟩ := h hunchanged herror hkind
  rcases hapart with hbefore | hbehind
  · obtain ⟨behind', hstanding'⟩ := hstanding.edit_before replacement hedit.start hbefore
    exact ⟨before, row, behind', hstanding'⟩
  · obtain ⟨before', hstanding'⟩ := hstanding.edit_behind hedit hbehind
    exact ⟨before', row, behind, hstanding'⟩

end Parse

end Azsl
