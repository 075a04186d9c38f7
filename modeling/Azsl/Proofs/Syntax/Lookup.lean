/-
Azsl.Proofs.Syntax.Lookup — what a search for a stretch of text finds.

The search goes down from child to child as long as one spans the stretch. What it finds is the
node it started from, or a node below that spans the stretch. A walk that leaves out what is
inside errors finds nodes of the tree, too.
-/
import Azsl.Proofs.Syntax.Links
import Mathlib.Data.List.Flatten

namespace Azsl

namespace Focus

/-- What was found so far, or a node below that spans the stretch. -/
def Improves (start stop : Point) (within best found : Focus) : Prop :=
  found = best ∨ found ∈ within.descendants ∧ fit start stop found.node = .spans

variable {start stop : Point}

/-- Going through children finds something in one of them, if going down into each does. -/
theorem descendInto_mem {label : Label} {outer : List Frame} {best : Focus} {nodes : List Node}
    (h : ∀ child ∈ nodes, ∀ frames, fit start stop child = .spans →
      Improves start stop ⟨child, frames⟩ best (descend start stop best frames child))
    (before : List Node) :
    descendInto start stop best label outer before nodes = best ∨
      ∃ child ∈ spread label outer before nodes,
        descendInto start stop best label outer before nodes ∈ child.descendants ∧
          fit start stop (descendInto start stop best label outer before nodes).node = .spans := by
  induction nodes generalizing before with
  | nil => exact .inl rfl
  | cons child rest ih =>
    rw [descendInto, spread]
    cases hfit : fit start stop child with
    | skip =>
      obtain hbest | ⟨other, hmem, hfound⟩ :=
        ih (fun other hmem => h other (List.mem_cons_of_mem _ hmem)) (child :: before)
      · exact .inl hbest
      · exact .inr ⟨other, List.mem_cons_of_mem _ hmem, hfound⟩
    | past => exact .inl rfl
    | spans =>
      obtain hbest | hfound := h child List.mem_cons_self (⟨label, before, rest⟩ :: outer) hfit
      · exact .inl hbest
      · exact .inr ⟨_, List.mem_cons_self, hfound⟩

/-- Going down from a node that spans the stretch finds it, or something below it. -/
theorem descend_improves (node : Node) (frames : List Frame) (best : Focus)
    (h : fit start stop node = .spans) :
    Improves start stop ⟨node, frames⟩ best (descend start stop best frames node) := by
  induction node using Node.rec_children generalizing frames best with
  | step node ih =>
    obtain ⟨label, children⟩ := node
    have hself : Improves start stop ⟨.mk label children, frames⟩ best
        ⟨.mk label children, frames⟩ := .inr ⟨self_mem_descendants _, h⟩
    have hbest : ∀ candidate, Improves start stop ⟨.mk label children, frames⟩ best candidate →
        Improves start stop ⟨.mk label children, frames⟩ best
          (descendInto start stop candidate label frames [] children) := by
      intro candidate hcandidate
      obtain hsame | ⟨child, hmem, hfound, hfit⟩ :=
        @descendInto_mem start stop label frames candidate children
          (fun child hmem frames hfit => ih child hmem frames candidate hfit) []
      · rwa [hsame]
      · refine .inr ⟨?_, hfit⟩
        rw [descendants_eq]
        exact List.mem_cons_of_mem _ (List.mem_flatMap.mpr ⟨child, hmem, hfound⟩)
    rw [descend]
    split
    · exact hself
    · split
      · exact hbest _ hself
      · exact hbest _ (.inl rfl)

/-- A search finds the node it started from, or a node below that spans the stretch. -/
theorem namedAt_improves (focus : Focus) (start stop : Point) :
    Improves start stop focus focus (focus.namedAt start stop) := by
  obtain hsame | ⟨child, hmem, hfound, hfit⟩ :=
    descendInto_mem (fun child _ frames hfit => descend_improves child frames focus hfit) []
  · exact .inl hsame
  · refine .inr ⟨?_, hfit⟩
    rw [descendants_eq]
    exact List.mem_cons_of_mem _ (List.mem_flatMap.mpr ⟨child, hmem, hfound⟩)

/-! ## Visible nodes -/

theorem visible_eq (focus : Focus) :
    focus.visible = focus ::
      (if focus.kind = .error then [] else focus.children.flatMap visible) := by
  have hall : ∀ (label : Label) (outer : List Frame) (before nodes : List Node),
      walkAll true label outer before nodes
        = (spread label outer before nodes).flatMap visible := by
    intro label outer before nodes
    induction nodes generalizing before with
    | nil => rfl
    | cons child rest ih => rw [walkAll, spread, List.flatMap_cons, ih]; rfl
  obtain ⟨⟨label, children⟩, frames⟩ := focus
  show walk true frames (.mk label children) = _
  rw [walk, hall]
  simp only [true_and]
  rfl

/-- A walk that leaves out what is inside errors keeps the order of the full one. -/
theorem visible_sublist (focus : Focus) : focus.visible.Sublist focus.descendants := by
  obtain ⟨node, frames⟩ := focus
  induction node using Node.rec_children generalizing frames with
  | step node ih =>
    rw [visible_eq, descendants_eq]
    refine .cons_cons _ ?_
    split
    · exact List.nil_sublist _
    · refine List.Sublist.flatMap_right _ fun child hchild => ?_
      exact ih child.node (node_mem_children hchild) child.frames

/-- Visible nodes are nodes of the tree. -/
theorem mem_descendants_of_visible {focus found : Focus} (h : found ∈ focus.visible) :
    found ∈ focus.descendants :=
  focus.visible_sublist.mem h

end Focus

end Azsl
