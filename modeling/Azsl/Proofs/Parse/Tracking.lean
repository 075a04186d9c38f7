/-
Azsl.Proofs.Parse.Tracking — a tree keeps up with the edits of its text.

A node that no edit touched still stands for its text, byte for byte, and has the points of the
new text. A node that an edit touched is marked, and so is everything around it. Marked or not,
nodes stay in their order and inside their parents, and no position is shifted below zero.

What an edit does to one label is `Label.Tracks.edit`, what it does to a whole tree
`Revision.Tracks.replace`; a sequence of edits follows by induction (`replaceAll_keepsUp`).
-/
import Azsl.Proofs.Parse.Incremental
import Azsl.Proofs.Parse.Places
import Azsl.Proofs.Syntax.Path

namespace Azsl

/-! ## Labels -/

namespace Edit

/-- The edit replaces something in the span of a label, or something right beside it. -/
def Meets (edit : Edit) (label : Label) : Prop :=
  edit.start.byte ≤ label.stop.byte ∧ label.start.byte ≤ edit.oldEnd.byte

instance (edit : Edit) (label : Label) : Decidable (edit.Meets label) :=
  inferInstanceAs (Decidable (_ ∧ _))

end Edit

namespace Label

variable {label : Label}

/-- `Label.edit` where no difference falls below zero. -/
def edit? (edit : Edit) (label : Label) : Option Label :=
  if label.stop.byte < edit.start.byte then some label
  else if edit.oldEnd.byte < label.start.byte then
    (edit.shift? label.start).bind fun start =>
      (edit.shift? label.stop).map fun stop => { label with start := start, stop := stop }
  else
    (if edit.oldEnd.byte < label.stop.byte then edit.shift? label.stop else some edit.newEnd).map
      fun stop => { label.edit edit with stop := stop }

theorem kind_edit (edit : Edit) (label : Label) : (label.edit edit).kind = label.kind := by
  unfold Label.edit
  split_ifs <;> rfl

/-- A label that an edit meets is marked, and marks stay. -/
theorem hasChanges_edit {edit : Edit} (h : label.hasChanges = true ∨ edit.Meets label) :
    (label.edit edit).hasChanges = true := by
  unfold Label.edit
  by_cases hbefore : label.stop.byte < edit.start.byte
  · rw [if_pos hbefore]
    exact h.resolve_right fun hmeets => absurd hmeets.1 (by omega)
  · by_cases hbehind : edit.oldEnd.byte < label.start.byte
    · rw [if_neg hbefore, if_pos hbehind]
      exact h.resolve_right fun hmeets => absurd hmeets.2 (by omega)
    · rw [if_neg hbefore, if_neg hbehind]

/-- An edit moves both ends of a label on their own, and marks the label if it meets it. -/
theorem edit_eq {edit : Edit} (hedit : edit.Forward) (hwidth : label.start.byte ≤ label.stop.byte) :
    label.edit edit = { label with
      start := edit.moveStart label.start
      stop := edit.moveStop label.stop
      hasChanges := label.hasChanges || decide (edit.Meets label) } := by
  have hold := hedit.1
  unfold Label.edit Edit.moveStart Edit.moveStop
  by_cases hbefore : label.stop.byte < edit.start.byte
  · have hmeets : ¬ edit.Meets label := fun h => absurd h.1 (by omega)
    rw [if_pos hbefore, if_pos hbefore, if_pos (by omega), decide_eq_false hmeets, Bool.or_false]
  · by_cases hbehind : edit.oldEnd.byte < label.start.byte
    · have hmeets : ¬ edit.Meets label := fun h => absurd h.2 (by omega)
      have hstart : ¬ label.start.byte < edit.start.byte := by omega
      have hstop : edit.oldEnd.byte < label.stop.byte := by omega
      rw [if_neg hbefore, if_pos hbehind, if_neg hstart, if_neg hbefore, if_pos hbehind,
        if_pos hstop, decide_eq_false hmeets, Bool.or_false]
    · have hmeets : edit.Meets label := ⟨by omega, by omega⟩
      rw [if_neg hbefore, if_neg hbehind, if_neg hbefore, if_neg hbehind, decide_eq_true hmeets,
        Bool.or_true]

/-- A label stands for a part of a text. -/
def Holds (chars covered : List Char) (label : Label) : Prop :=
  ∃ before behind, chars = before ++ covered ++ behind ∧
    label.start = Location.origin.advance before ∧
    label.stop = Location.origin.advance (before ++ covered)

variable {chars covered left middle right : List Char}

/-- Where a label stands, the text has the characters that it stands for. -/
theorem Holds.slice (h : label.Holds chars covered) :
    sliceBytes? chars label.start.byte label.stop.byte = some covered ∧
      label.start = (SourceText.ofChars chars).locationAt label.start.byte ∧
      label.stop = (SourceText.ofChars chars).locationAt label.stop.byte := by
  obtain ⟨before, behind, rfl, hstart, hstop⟩ := h
  rw [hstart, hstop, Location.byte_origin, Location.byte_origin]
  refine ⟨?_, ?_, ?_⟩
  · rw [byteLength_append, List.append_assoc]
    exact SourceText.sliceBytes?_byteLength before covered behind
  · rw [List.append_assoc, SourceText.locationAt_ofChars]
  · rw [SourceText.locationAt_ofChars]

/-- A label that an edit does not meet goes on standing for its part of the text. -/
theorem Holds.edit (replacement : List Char)
    (h : Holds (left ++ middle ++ right) covered label)
    (hmeets : ¬ (Edit.replacing left middle replacement).Meets label) :
    Holds (left ++ replacement ++ right) covered
      (label.edit (Edit.replacing left middle replacement)) := by
  obtain ⟨before, behind, hchars, hstart, hstop⟩ := h
  have hstartByte : label.start.byte = byteLength before := hstart ▸ Location.byte_origin before
  have hstopByte : label.stop.byte = byteLength (before ++ covered) :=
    hstop ▸ Location.byte_origin _
  have hwidth : label.start.byte ≤ label.stop.byte := by
    rw [hstartByte, hstopByte, byteLength_append]
    omega
  rw [edit_eq (Edit.forward_replacing ..) hwidth]
  rcases Nat.lt_or_ge label.stop.byte (Edit.replacing left middle replacement).start.byte with
    hbefore | hbehind
  · have hstay : label.start.byte < (Edit.replacing left middle replacement).start.byte := by omega
    rw [Edit.replacing_start_byte, hstopByte] at hbefore
    rw [List.append_assoc] at hchars
    obtain ⟨between, rfl, -⟩ := exists_between hchars.symm (Nat.le_of_lt hbefore)
    refine ⟨before, between ++ (replacement ++ right), by simp, ?_, ?_⟩
    · exact (if_pos hstay).trans hstart
    · rw [Edit.replacing_start_byte] at hstay
      exact (if_pos (by rw [Edit.replacing_start_byte, hstopByte]; exact hbefore)).trans hstop
  · have hbehind' : (Edit.replacing left middle replacement).oldEnd.byte < label.start.byte := by
      rcases Nat.lt_or_ge (Edit.replacing left middle replacement).oldEnd.byte label.start.byte
        with hlt | hge
      · exact hlt
      · exact absurd ⟨hbehind, hge⟩ hmeets
    have hold := (Edit.forward_replacing left middle replacement).1
    have hlater := hbehind'
    rw [Edit.replacing_oldEnd_byte, hstartByte, ← byteLength_append] at hlater
    obtain ⟨between, rfl, rfl⟩ := exists_between (hchars.trans (List.append_assoc ..))
      (Nat.le_of_lt hlater)
    refine ⟨left ++ replacement ++ between, behind, by simp, ?_, ?_⟩
    · show Edit.moveStart _ _ = _
      rw [Edit.moveStart, if_neg (by omega), if_pos hbehind', hstart, Edit.replacing_shift]
    · show Edit.moveStop _ _ = _
      rw [Edit.moveStop, if_neg (by omega), if_pos (by omega), hstop]
      have hshift := Edit.replacing_shift left middle replacement (between ++ covered)
      simpa only [← List.append_assoc] using hshift

/-- A label of the tree of `chars`, and what has become of it in a tree of `now`. -/
structure Tracks (chars now : List Char) (old new : Label) : Prop where
  stop : new.stop.Stands now
  row : rowOf now new.start.byte ≤ new.start.point.row
  unchanged : new.hasChanges = false →
    ∃ covered, old.Holds chars covered ∧ new.Holds now covered

theorem Tracks.edit {old new : Label} (replacement : List Char)
    (h : Tracks chars (left ++ middle ++ right) old new)
    (hwidth : new.start.byte ≤ new.stop.byte) :
    Tracks chars (left ++ replacement ++ right) old
      (new.edit (Edit.replacing left middle replacement)) := by
  have hedit := edit_eq (Edit.forward_replacing left middle replacement) hwidth
  constructor
  · rw [hedit]
    exact Edit.stands_moveStop replacement h.stop
  · rw [hedit]
    exact Edit.rowOf_moveStart replacement h.row
  · intro hchanges
    rw [hedit] at hchanges
    obtain ⟨hsame, hmeets⟩ := Bool.or_eq_false_iff.mp hchanges
    obtain ⟨covered, hold, hnew⟩ := h.unchanged hsame
    exact ⟨covered, hold, hnew.edit replacement (of_decide_eq_false hmeets)⟩

/-- Nothing falls below zero when a label keeps up with an edit. -/
theorem Tracks.edit?_eq {old new : Label} (replacement : List Char)
    (h : Tracks chars (left ++ middle ++ right) old new)
    (hwidth : new.start.byte ≤ new.stop.byte) :
    new.edit? (Edit.replacing left middle replacement)
      = some (new.edit (Edit.replacing left middle replacement)) := by
  have hrow : ∀ byte : Nat, (Edit.replacing left middle replacement).oldEnd.byte ≤ byte →
      (Edit.replacing left middle replacement).oldEnd.point.row
        ≤ rowOf (left ++ middle ++ right) byte := by
    intro byte hle
    have hstands : (Edit.replacing left middle replacement).oldEnd.Stands
        (left ++ middle ++ right) := ⟨left ++ middle, right, rfl, rfl⟩
    rw [← hstands.rowOf_eq]
    exact rowOf_mono _ hle
  have hstop : (Edit.replacing left middle replacement).oldEnd.byte < new.stop.byte →
      Edit.shift? _ new.stop = some (Edit.shift _ new.stop) := fun hlt =>
    Edit.shift?_eq (Nat.le_of_lt hlt) (h.stop.rowOf_eq ▸ hrow _ (Nat.le_of_lt hlt))
  unfold edit?
  split_ifs with hbefore hbehind hpast
  · rw [Label.edit, if_pos hbefore]
  · have hstart := Edit.shift?_eq (Nat.le_of_lt hbehind)
      (Nat.le_trans (hrow _ (Nat.le_of_lt hbehind)) h.row)
    rw [hstart, hstop (by omega), Label.edit, if_neg hbefore, if_pos hbehind]
    rfl
  · rw [hstop hpast, Option.map_some, edit_eq (Edit.forward_replacing ..) hwidth, Edit.moveStop,
      if_neg hbefore, if_pos hpast]
  · rw [Option.map_some, edit_eq (Edit.forward_replacing ..) hwidth, Edit.moveStop,
      if_neg hbefore, if_neg hpast]

end Label

/-! ## Nodes -/

namespace Node

theorem subtree?_mapLabels (f : Label → Label) (node : Node) (path : List Nat) :
    (node.mapLabels f).subtree? path = (node.subtree? path).map (mapLabels f) := by
  induction path generalizing node with
  | nil => rfl
  | cons index rest ih =>
    rw [subtree?_cons, subtree?_cons, children_mapLabels, List.getElem?_map]
    cases node.children[index]? with
    | none => rfl
    | some child => exact ih child

theorem kind_edit (edit : Edit) (node : Node) :
    (node.mapLabels (Label.edit edit)).kind = node.kind := by
  rw [kind, label_mapLabels, Label.kind_edit, kind]

theorem start_edit {edit : Edit} {node : Node} (hedit : edit.Forward)
    (hwidth : node.start.byte ≤ node.stop.byte) :
    (node.mapLabels (Label.edit edit)).start = edit.moveStart node.start := by
  rw [start, label_mapLabels, Label.edit_eq hedit hwidth]
  rfl

theorem stop_edit {edit : Edit} {node : Node} (hedit : edit.Forward)
    (hwidth : node.start.byte ≤ node.stop.byte) :
    (node.mapLabels (Label.edit edit)).stop = edit.moveStop node.stop := by
  rw [stop, label_mapLabels, Label.edit_eq hedit hwidth]
  rfl

/-- An edit leaves children in their order and inside their parents. -/
theorem Spans.edit {left middle right : List Char} (replacement : List Char) {root : Node}
    (h : ∀ node ∈ root.descendants, node.Spans (byteLength (left ++ middle ++ right))) :
    ∀ node ∈ (root.mapLabels (Label.edit (.replacing left middle replacement))).descendants,
      node.Spans (byteLength (left ++ replacement ++ right)) := by
  have hedit := Edit.forward_replacing left middle replacement
  rw [descendants_mapLabels, List.forall_mem_map]
  intro node hmem
  have hnode := h node hmem
  have hchild : ∀ child ∈ node.children, child.start.byte ≤ child.stop.byte := by
    intro child hchild
    exact (h child (child_mem_descendants hmem hchild)).width
  constructor
  · rw [start_edit hedit hnode.width, stop_edit hedit hnode.width]
    exact Edit.moveStart_le_moveStop hedit hnode.width
  · rw [stop_edit hedit hnode.width, Edit.moveStop_byte, Edit.shiftByte]
    have hbound := hnode.bound
    simp only [byteLength_append, Edit.replacing_start_byte, Edit.replacing_oldEnd_byte,
      Edit.replacing_newEnd_byte] at hbound ⊢
    split_ifs <;> omega
  · rw [children_mapLabels, List.forall_mem_map]
    intro child hmem
    obtain ⟨hstart, hstop⟩ := hnode.around child hmem
    rw [start_edit hedit hnode.width, stop_edit hedit hnode.width,
      start_edit hedit (hchild child hmem), stop_edit hedit (hchild child hmem)]
    exact ⟨Edit.moveStart_le_moveStart hedit hstart, Edit.moveStop_le_moveStop hedit hstop⟩
  · rw [children_mapLabels, List.pairwise_map]
    refine hnode.ordered.imp_of_mem fun {first second} hfirst hsecond hle => ?_
    rw [start_edit hedit (hchild first hfirst), start_edit hedit (hchild second hsecond)]
    exact Edit.moveStart_le_moveStart hedit hle

/-- A node spans all that is below it. -/
theorem Spans.below {size : Nat} {root low : Node} {path : List Nat}
    (h : ∀ node ∈ root.descendants, node.Spans size) (hlow : root.subtree? path = some low) :
    root.start.byte ≤ low.start.byte ∧ low.stop.byte ≤ root.stop.byte := by
  induction path generalizing root with
  | nil =>
    obtain rfl := Option.some.inj hlow
    exact ⟨Nat.le_refl _, Nat.le_refl _⟩
  | cons index rest ih =>
    obtain ⟨child, hchild, hlow⟩ := Option.bind_eq_some_iff.mp hlow
    have hmem := List.mem_of_getElem? hchild
    have hbelow : ∀ node ∈ child.descendants, node.Spans size := fun node hnode =>
      h node (mem_descendants_of_below (List.mem_flatMap.mpr ⟨child, hmem, hnode⟩))
    obtain ⟨hstart, hstop⟩ := (h root root.self_mem_descendants).around child hmem
    obtain ⟨hstart', hstop'⟩ := ih hbelow hlow
    omega

end Node

/-! ## Revisions -/

namespace Revision

/-- The edit that a change of the text hands to the tree. -/
def editOf (revision : Revision) (change : Range × List Char) : Edit :=
  (revision.text.applyChange change.1 change.2).2

/-- What has become of a text and its tree: nodes have kept their places in the tree, their labels
track the text, and their spans are in order. -/
structure Tracks (chars : List Char) (revision : Revision) : Prop where
  indexed : revision.text = .ofChars revision.text.chars
  kinds : ∀ path, (revision.tree.root.subtree? path).map (·.kind)
    = ((parse chars none).root.subtree? path).map (·.kind)
  labels : ∀ path old new, (parse chars none).root.subtree? path = some old →
    revision.tree.root.subtree? path = some new →
    Label.Tracks chars revision.text.chars old.label new.label
  spans : ∀ node ∈ revision.tree.root.descendants,
    node.Spans (byteLength revision.text.chars)

variable {chars : List Char} {revision : Revision}

theorem Tracks.fresh (chars : List Char) : Tracks chars (fresh chars) where
  indexed := rfl
  kinds _ := rfl
  labels path old new hold hnew := by
    obtain rfl := Option.some.inj (hold.symm.trans hnew)
    have hmem := Node.mem_descendants_of_subtree? hold
    obtain ⟨⟨before, behind, hchars, hstart⟩, hstop⟩ := Parse.ends_of_mem hmem
    refine ⟨hstop, Nat.le_of_eq ?_, fun _ => ?_⟩
    · exact Location.Stands.rowOf_eq ⟨before, behind, hchars, hstart⟩
    · obtain ⟨before', behind', hchars', hstop⟩ := hstop
      have hwidth := (Parse.spans_of_mem hmem).width
      rw [hstart, hstop, Location.byte_origin, Location.byte_origin] at hwidth
      obtain ⟨covered, rfl, -⟩ := exists_between (hchars.symm.trans hchars') hwidth
      exact ⟨covered, ⟨before, behind', hchars', hstart, hstop⟩, before, behind', hchars', hstart,
        hstop⟩
  spans _ hmem := Parse.spans_of_mem hmem

/-- A change replaces one stretch of the text, and its edit says so. -/
theorem exists_replacing (hindexed : revision.text = .ofChars revision.text.chars)
    (change : Range × List Char) :
    ∃ left middle right, revision.text.chars = left ++ middle ++ right ∧
      revision.editOf change = .replacing left middle change.2 ∧
      revision.replace change.1 change.2 = ⟨.ofChars (left ++ change.2 ++ right),
        revision.tree.edit (.replacing left middle change.2)⟩ := by
  obtain ⟨left, middle, right, hchars, hchange⟩ :=
    SourceText.applyChange_eq revision.text.chars change.1 change.2
  rw [← hindexed] at hchange
  refine ⟨left, middle, right, hchars, ?_, ?_⟩
  · rw [editOf, hchange]
    rfl
  · simp only [replace, hchange]
    rfl

/-- A change leaves nodes in their places and edits their labels. -/
theorem subtree?_replace (revision : Revision) (change : Range × List Char) (path : List Nat) :
    (revision.replace change.1 change.2).tree.root.subtree? path
      = (revision.tree.root.subtree? path).map
        (Node.mapLabels (Label.edit (revision.editOf change))) :=
  Node.subtree?_mapLabels _ _ path

theorem Tracks.replace (h : Tracks chars revision) (change : Range × List Char) :
    Tracks chars (revision.replace change.1 change.2) := by
  obtain ⟨left, middle, right, hchars, hedit, hreplace⟩ := exists_replacing h.indexed change
  have hpath := revision.subtree?_replace change
  rw [hedit] at hpath
  have hspans := h.spans
  rw [hchars] at hspans
  constructor
  · rw [hreplace]
    rfl
  · intro path
    rw [hpath, ← h.kinds, Option.map_map]
    exact Option.map_congr fun node _ => node.kind_edit _
  · intro path old new hold hnew
    rw [hpath] at hnew
    obtain ⟨node, hnode, rfl⟩ := Option.map_eq_some_iff.mp hnew
    have htracks := h.labels path old node hold hnode
    rw [hchars] at htracks
    rw [hreplace, Node.label_mapLabels]
    exact htracks.edit change.2 (hspans node (Node.mem_descendants_of_subtree? hnode)).width
  · rw [hreplace]
    exact Node.Spans.edit change.2 hspans

theorem Tracks.replaceAll (h : Tracks chars revision) (changes : List (Range × List Char)) :
    Tracks chars (revision.replaceAll changes) := by
  induction changes generalizing revision with
  | nil => exact h
  | cons change rest ih => exact ih (h.replace change)

theorem replaceAll_append_cons (revision : Revision) (earlier : List (Range × List Char))
    (change : Range × List Char) (later : List (Range × List Char)) :
    revision.replaceAll (earlier ++ change :: later)
      = ((revision.replaceAll earlier).replace change.1 change.2).replaceAll later := by
  rw [Revision.replaceAll, List.foldl_append, List.foldl_cons]
  rfl

/-- Marks stay, whatever else changes. -/
theorem hasChanges_replaceAll {path : List Nat} {old new : Node}
    (h : revision.tree.root.subtree? path = some old) (hchanges : old.hasChanges = true)
    (changes : List (Range × List Char))
    (hnew : (revision.replaceAll changes).tree.root.subtree? path = some new) :
    new.hasChanges = true := by
  induction changes generalizing revision old with
  | nil =>
    obtain rfl := Option.some.inj (h.symm.trans hnew)
    exact hchanges
  | cons change rest ih =>
    have hnext : (revision.replace change.1 change.2).tree.root.subtree? path
        = some (old.mapLabels (Label.edit (revision.editOf change))) := by
      rw [subtree?_replace, h]
      rfl
    refine ih hnext ?_ hnew
    rw [Node.hasChanges, Node.label_mapLabels]
    exact Label.hasChanges_edit (.inl hchanges)

/-- An edit marks what it meets and everything around it. -/
theorem Tracks.hasChanges_replace (h : Tracks chars revision) (change : Range × List Char)
    {above below : List Nat} {low new : Node}
    (hlow : revision.tree.root.subtree? (above ++ below) = some low)
    (hmeets : (revision.editOf change).Meets low.label)
    (hnew : (revision.replace change.1 change.2).tree.root.subtree? above = some new) :
    new.hasChanges = true := by
  rw [Node.subtree?_append] at hlow
  obtain ⟨high, hhigh, hlow⟩ := Option.bind_eq_some_iff.mp hlow
  have hspans : ∀ node ∈ high.descendants, node.Spans (byteLength revision.text.chars) := by
    intro node hmem
    obtain ⟨path, hpath⟩ := Node.exists_subtree?_of_mem_descendants hmem
    have hbelow : revision.tree.root.subtree? (above ++ path) = some node := by
      rw [Node.subtree?_append, hhigh]
      exact hpath
    exact h.spans node (Node.mem_descendants_of_subtree? hbelow)
  obtain ⟨hstart, hstop⟩ := Node.Spans.below hspans hlow
  have haround : (revision.editOf change).Meets high.label :=
    ⟨Nat.le_trans hmeets.1 hstop, Nat.le_trans hstart hmeets.2⟩
  rw [subtree?_replace, hhigh] at hnew
  obtain rfl := Option.some.inj hnew
  rw [Node.hasChanges, Node.label_mapLabels]
  exact Label.hasChanges_edit (.inr haround)

/-- Nothing falls below zero when a tree keeps up with a change. -/
theorem Tracks.edit?_eq (h : Tracks chars revision) (change : Range × List Char) {node : Node}
    (hmem : node ∈ revision.tree.root.descendants) :
    node.label.edit? (revision.editOf change)
      = some (node.label.edit (revision.editOf change)) := by
  obtain ⟨left, middle, right, hchars, hedit, -⟩ := exists_replacing h.indexed change
  obtain ⟨path, hpath⟩ := Node.exists_subtree?_of_mem_descendants hmem
  obtain ⟨old, hold, -⟩ : ∃ old, (parse chars none).root.subtree? path = some old ∧ _ := by
    have hkinds := h.kinds path
    rw [hpath, Option.map_some] at hkinds
    exact Option.map_eq_some_iff.mp hkinds.symm
  have htracks := h.labels path old node hold hpath
  rw [hchars] at htracks
  rw [hedit]
  exact htracks.edit?_eq change.2 (h.spans node hmem).width

/-- A tree keeps up with changes of its text. Nodes are named by the way down to them, which no
change affects. -/
structure KeepsUp (chars : List Char) (changes : List (Range × List Char)) : Prop where
  /-- No node comes or goes. -/
  kinds : ∀ path, (((fresh chars).replaceAll changes).tree.root.subtree? path).map (·.kind)
    = ((fresh chars).tree.root.subtree? path).map (·.kind)
  /-- What is not marked covers the text that it covered, and has the points of the new text. -/
  unmarked : ∀ path old new, (fresh chars).tree.root.subtree? path = some old →
    ((fresh chars).replaceAll changes).tree.root.subtree? path = some new →
    new.hasChanges = false →
    (∃ covered, sliceBytes? chars old.start.byte old.stop.byte = some covered ∧
      sliceBytes? ((fresh chars).replaceAll changes).text.chars new.start.byte new.stop.byte
        = some covered) ∧
    new.start = ((fresh chars).replaceAll changes).text.locationAt new.start.byte ∧
    new.stop = ((fresh chars).replaceAll changes).text.locationAt new.stop.byte
  /-- What met a change is marked, and so is everything around it. -/
  marked : ∀ earlier change later, changes = earlier ++ change :: later →
    ∀ above below node, ((fresh chars).replaceAll earlier).tree.root.subtree? (above ++ below)
      = some node →
    (((fresh chars).replaceAll earlier).editOf change).Meets node.label →
    ∀ new, ((fresh chars).replaceAll changes).tree.root.subtree? above = some new →
    new.hasChanges = true
  /-- Nodes end behind their starts and within the text, span their children, and these are
  ordered by their starts. -/
  spans : ∀ node ∈ ((fresh chars).replaceAll changes).tree.root.descendants,
    node.Spans ((fresh chars).replaceAll changes).text.size
  /-- No difference falls below zero on the way. -/
  checked : ∀ earlier change later, changes = earlier ++ change :: later →
    ∀ node ∈ ((fresh chars).replaceAll earlier).tree.root.descendants,
    node.label.edit? (((fresh chars).replaceAll earlier).editOf change)
      = some (node.label.edit (((fresh chars).replaceAll earlier).editOf change))

/-- The tree of every text keeps up with every sequence of changes. -/
theorem replaceAll_keepsUp (chars : List Char) (changes : List (Range × List Char)) :
    KeepsUp chars changes := by
  have htracks : ∀ changes, Tracks chars ((fresh chars).replaceAll changes) :=
    fun changes => (Tracks.fresh chars).replaceAll changes
  constructor
  · exact (htracks changes).kinds
  · intro path old new hold hnew hchanges
    obtain ⟨covered, hbefore, hafter⟩ :=
      ((htracks changes).labels path old new hold hnew).unchanged hchanges
    obtain ⟨hslice, hstart, hstop⟩ := hafter.slice
    rw [← (htracks changes).indexed] at hstart hstop
    exact ⟨⟨covered, hbefore.slice.1, hslice⟩, hstart, hstop⟩
  · rintro earlier change later rfl above below node hnode hmeets new hnew
    have hkinds := (htracks (earlier ++ change :: later)).kinds above
    rw [← ((htracks earlier).replace change).kinds above, hnew, Option.map_some] at hkinds
    obtain ⟨mid, hmid, -⟩ := Option.map_eq_some_iff.mp hkinds.symm
    rw [replaceAll_append_cons] at hnew
    have hmarked := (htracks earlier).hasChanges_replace change hnode hmeets hmid
    exact hasChanges_replaceAll hmid hmarked later hnew
  · intro node hmem
    have hspans := (htracks changes).spans node hmem
    exact hspans
  · rintro earlier change later rfl node hmem
    exact (htracks earlier).edit?_eq change hmem

end Revision

end Azsl
