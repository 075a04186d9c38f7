/-
Azsl.Proofs.Syntax.Links — parents, children and places among siblings agree.

A focus reads its parent and its place off the frames around it. In a walk through a whole tree
the children of every focus point back to it, and every focus but the root stands where its
parent has it.
-/
import Azsl.Syntax.Focus
import Mathlib.Data.List.Basic

namespace Azsl

namespace Focus

/-- The place among the children of the parent. -/
def index (focus : Focus) : Option Nat :=
  focus.frames.head?.map (·.before.length)

theorem spread_node (label : Label) (outer : List Frame) (before nodes : List Node) :
    (spread label outer before nodes).map (·.node) = nodes := by
  induction nodes generalizing before with
  | nil => rfl
  | cons child rest ih => rw [spread, List.map_cons, ih]

theorem children_node (focus : Focus) : focus.children.map (·.node) = focus.node.children :=
  spread_node _ _ _ _

theorem node_mem_children {focus child : Focus} (h : child ∈ focus.children) :
    child.node ∈ focus.node.children := by
  rw [← children_node]
  exact List.mem_map_of_mem h

/-- Every child in a spread has the parent and its place among the siblings. -/
theorem spread_links {label : Label} {outer : List Frame} {before nodes : List Node} {k : Nat}
    {child : Focus} (h : (spread label outer before nodes)[k]? = some child) :
    child.parent = some ⟨.mk label (before.reverse ++ nodes), outer⟩ ∧
      child.index = some (before.length + k) := by
  induction nodes generalizing before k with
  | nil => simp [spread] at h
  | cons first rest ih =>
    cases k with
    | zero =>
      rw [spread, List.getElem?_cons_zero, Option.some_inj] at h
      subst h
      exact ⟨rfl, rfl⟩
    | succ k =>
      rw [spread, List.getElem?_cons_succ] at h
      obtain ⟨hparent, hindex⟩ := ih h
      refine ⟨by simpa using hparent, ?_⟩
      rw [hindex, List.length_cons, Nat.add_right_comm, Nat.add_assoc]

/-- A child points back to its parent. -/
theorem links_of_child {focus child : Focus} {k : Nat} (h : focus.children[k]? = some child) :
    child.parent = some focus ∧ child.index = some k := by
  obtain ⟨hparent, hindex⟩ := spread_links h
  refine ⟨?_, by simpa using hindex⟩
  obtain ⟨⟨label, children⟩, frames⟩ := focus
  simpa [Node.label, Node.children] using hparent

/-! ## Walks -/

theorem descendants_eq (focus : Focus) :
    focus.descendants = focus :: focus.children.flatMap descendants := by
  have hall : ∀ (label : Label) (outer : List Frame) (before nodes : List Node),
      walkAll false label outer before nodes
        = (spread label outer before nodes).flatMap descendants := by
    intro label outer before nodes
    induction nodes generalizing before with
    | nil => rfl
    | cons child rest ih => rw [walkAll, spread, List.flatMap_cons, ih]; rfl
  obtain ⟨⟨label, children⟩, frames⟩ := focus
  show walk false frames (.mk label children) = _
  rw [walk, if_neg (by simp), hall]
  rfl

theorem self_mem_descendants (focus : Focus) : focus ∈ focus.descendants := by
  rw [descendants_eq]
  exact List.mem_cons_self

end Focus

/-- Induction over a tree: what holds of a node when it holds of its children. -/
theorem Node.rec_children {motive : Node → Prop}
    (step : ∀ node, (∀ child ∈ node.children, motive child) → motive node) (node : Node) :
    motive node :=
  @Node.rec motive (fun nodes => ∀ child ∈ nodes, motive child)
    (fun _ _ ih => step _ ih) (fun _ hmem => absurd hmem (by simp))
    (fun _ _ hfirst hrest child hmem => by
      rcases List.mem_cons.mp hmem with rfl | hmem
      · exact hfirst
      · exact hrest child hmem) node

theorem Node.descendants_eq (node : Node) :
    node.descendants = node :: node.children.flatMap descendants := by
  have hall : ∀ nodes : List Node, descendantsAll nodes = nodes.flatMap descendants := by
    intro nodes
    induction nodes with
    | nil => rfl
    | cons child rest ih => rw [descendantsAll, List.flatMap_cons, ih]
  obtain ⟨label, children⟩ := node
  rw [descendants, hall]
  rfl

theorem Node.self_mem_descendants (node : Node) : node ∈ node.descendants := by
  rw [descendants_eq]
  exact List.mem_cons_self

theorem Node.mem_descendants_of_below {node below : Node}
    (h : below ∈ node.children.flatMap descendants) : below ∈ node.descendants := by
  rw [descendants_eq]
  exact List.mem_cons_of_mem _ h

namespace Focus

/-- A walk reaches the nodes of the tree, each in its place. -/
theorem descendants_node (focus : Focus) :
    focus.descendants.map (·.node) = focus.node.descendants := by
  obtain ⟨node, frames⟩ := focus
  induction node using Node.rec_children generalizing frames with
  | step node ih =>
    have hchildren := children_node ⟨node, frames⟩
    have hbelow : ∀ child ∈ children ⟨node, frames⟩,
        child.descendants.map (·.node) = child.node.descendants := fun child hmem =>
      ih child.node (hchildren ▸ List.mem_map_of_mem hmem) child.frames
    rw [descendants_eq, Node.descendants_eq, List.map_cons, List.map_flatMap,
      List.flatMap_congr hbelow, ← hchildren, List.flatMap_map]

theorem node_mem_descendants {root focus : Focus} (h : focus ∈ root.descendants) :
    focus.node ∈ root.node.descendants := by
  rw [← descendants_node]
  exact List.mem_map_of_mem h

/-- Whatever a walk reaches but its start is below it. -/
theorem mem_below {root focus : Focus} (h : focus ∈ root.descendants) (hne : focus ≠ root) :
    focus.node ∈ root.node.children.flatMap Node.descendants := by
  rw [descendants_eq] at h
  obtain ⟨child, hchild, hmem⟩ := List.mem_flatMap.mp ((List.mem_cons.mp h).resolve_left hne)
  exact List.mem_flatMap.mpr ⟨child.node, node_mem_children hchild, node_mem_descendants hmem⟩

/-- A walk reaches the children of everything it reaches. -/
theorem child_mem_descendants {root focus child : Focus} (h : focus ∈ root.descendants)
    (hchild : child ∈ focus.children) : child ∈ root.descendants := by
  obtain ⟨node, frames⟩ := root
  induction node using Node.rec_children generalizing frames with
  | step node ih =>
    rw [descendants_eq] at h ⊢
    rcases List.mem_cons.mp h with rfl | h
    · exact List.mem_cons_of_mem _
        (List.mem_flatMap.mpr ⟨child, hchild, self_mem_descendants child⟩)
    · obtain ⟨⟨between, frames'⟩, hbetween, hfocus⟩ := List.mem_flatMap.mp h
      have hnode : between ∈ node.children := node_mem_children hbetween
      exact List.mem_cons_of_mem _
        (List.mem_flatMap.mpr ⟨_, hbetween, ih between hnode frames' hfocus⟩)

/-- Everything a walk reaches but its start is a child of something it reaches. -/
theorem mem_children_of_mem_descendants {root focus : Focus} (h : focus ∈ root.descendants) :
    focus = root ∨ ∃ parent ∈ root.descendants, focus ∈ parent.children := by
  obtain ⟨node, frames⟩ := root
  induction node using Node.rec_children generalizing frames with
  | step node ih =>
    rw [descendants_eq] at h
    rcases List.mem_cons.mp h with rfl | h
    · exact .inl rfl
    · obtain ⟨⟨between, frames'⟩, hbetween, hfocus⟩ := List.mem_flatMap.mp h
      have hnode : between ∈ node.children := node_mem_children hbetween
      have hdescend : ∀ parent ∈ descendants ⟨between, frames'⟩,
          parent ∈ descendants ⟨node, frames⟩ := by
        intro parent hparent
        rw [descendants_eq]
        exact List.mem_cons_of_mem _ (List.mem_flatMap.mpr ⟨_, hbetween, hparent⟩)
      rcases ih between hnode frames' hfocus with rfl | ⟨parent, hparent, hmem⟩
      · exact .inr ⟨_, self_mem_descendants _, hbetween⟩
      · exact .inr ⟨parent, hdescend parent hparent, hmem⟩

/-- Parents and places among siblings agree with the lists of children. -/
structure Linked (root : Focus) : Prop where
  /-- Every child is reached and points back. -/
  down : ∀ focus ∈ root.descendants, focus.children.map (·.node) = focus.node.children ∧
    ∀ k child, focus.children[k]? = some child →
      child ∈ root.descendants ∧ child.parent = some focus ∧ child.index = some k
  /-- Everything but the root has a parent that is reached and has it at its place. -/
  up : ∀ focus ∈ root.descendants, focus ≠ root →
    ∃ parent ∈ root.descendants, ∃ k, focus.parent = some parent ∧ focus.index = some k ∧
      parent.children[k]? = some focus

theorem linked (root : Focus) : root.Linked where
  down focus hmem := by
    refine ⟨children_node focus, fun k child hchild => ?_⟩
    exact ⟨child_mem_descendants hmem (List.mem_of_getElem? hchild), links_of_child hchild⟩
  up focus hmem hne := by
    rcases mem_children_of_mem_descendants hmem with rfl | ⟨parent, hparent, hchild⟩
    · exact absurd rfl hne
    · obtain ⟨k, hk⟩ := List.getElem?_of_mem hchild
      obtain ⟨hup, hindex⟩ := links_of_child hk
      exact ⟨parent, hparent, k, hup, hindex, hk⟩

end Focus

end Azsl
