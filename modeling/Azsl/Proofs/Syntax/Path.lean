/-
Azsl.Proofs.Syntax.Path — nodes by child indices.

A path names a node by the indices of the children that lead to it. Paths survive every change
of labels, so they tell which node of one tree became which node of another.
-/
import Azsl.Proofs.Syntax.Links

namespace Azsl

namespace Node

/-- The node reached by child indices. -/
def subtree? (node : Node) : List Nat → Option Node
  | [] => some node
  | index :: rest => node.children[index]?.bind fun child => child.subtree? rest

@[simp] theorem subtree?_nil (node : Node) : node.subtree? [] = some node := rfl

theorem subtree?_cons (node : Node) (index : Nat) (rest : List Nat) :
    node.subtree? (index :: rest) = node.children[index]?.bind fun child => child.subtree? rest :=
  rfl

/-- Following two paths in turn is following one. -/
theorem subtree?_append (node : Node) (first second : List Nat) :
    node.subtree? (first ++ second) = (node.subtree? first).bind (·.subtree? second) := by
  induction first generalizing node with
  | nil => rfl
  | cons index rest ih =>
    rw [List.cons_append, subtree?_cons, subtree?_cons]
    cases node.children[index]? with
    | none => rfl
    | some child => exact ih child

/-- A path leads to a node of the tree. -/
theorem mem_descendants_of_subtree? {node found : Node} {path : List Nat}
    (h : node.subtree? path = some found) : found ∈ node.descendants := by
  induction path generalizing node with
  | nil =>
    obtain rfl := Option.some.inj h
    exact self_mem_descendants _
  | cons index rest ih =>
    obtain ⟨child, hchild, hfound⟩ := Option.bind_eq_some_iff.mp h
    exact mem_descendants_of_below
      (List.mem_flatMap.mpr ⟨child, List.mem_of_getElem? hchild, ih hfound⟩)

/-- Every node of a tree has a path. -/
theorem exists_subtree?_of_mem_descendants {node found : Node} (h : found ∈ node.descendants) :
    ∃ path, node.subtree? path = some found := by
  induction node using Node.rec_children with
  | step node ih =>
    rw [descendants_eq] at h
    rcases List.mem_cons.mp h with rfl | h
    · exact ⟨[], rfl⟩
    · obtain ⟨child, hchild, hfound⟩ := List.mem_flatMap.mp h
      obtain ⟨path, hpath⟩ := ih child hchild hfound
      obtain ⟨index, hindex⟩ := List.getElem?_of_mem hchild
      exact ⟨index :: path, by rw [subtree?_cons, hindex, Option.bind_some, hpath]⟩

end Node

end Azsl
