/-
Azsl.Proofs.Parse.Outermost — no error is inside another one.

An error stands over tokens, or over nothing where a token is missing at the end of the text. So
to look for errors outside of errors only is to look for all of them (`errors_parse`).
-/
import Azsl.Proofs.Parse.Lossless

namespace Azsl

namespace Node

/-- Whether a node is an error. -/
def isError (node : Node) : Bool := node.kind == .error

/-- Every error of a tree is outside of other errors. -/
def ErrorsApart (node : Node) : Prop :=
  node.visible.filter isError = node.descendants.filter isError

variable {node : Node}

theorem visible_eq (node : Node) :
    node.visible = node :: if node.kind = .error then [] else node.children.flatMap visible := by
  have hall : ∀ nodes : List Node, visibleAll nodes = nodes.flatMap visible := by
    intro nodes
    induction nodes with
    | nil => rfl
    | cons child rest ih => rw [visibleAll, List.flatMap_cons, ih]
  obtain ⟨label, children⟩ := node
  rw [visible, hall]
  rfl

theorem mem_visible_self (node : Node) : node ∈ node.visible := by
  rw [visible_eq]
  exact List.mem_cons_self

/-- What is below a node that is no error can be seen from outside. -/
theorem mem_visible_of_below {below : Node} (hkind : node.kind ≠ .error)
    (h : below ∈ node.children.flatMap visible) : below ∈ node.visible := by
  rw [visible_eq, if_neg hkind]
  exact List.mem_cons_of_mem _ h

theorem errorsApart_of_leaf (h : node.children = []) : node.ErrorsApart := by
  rw [ErrorsApart, visible_eq, descendants_eq, h, List.flatMap_nil, List.flatMap_nil, ite_self]

theorem errorsApart_of_children (hkind : node.kind ≠ .error)
    (h : ∀ child ∈ node.children, child.ErrorsApart) : node.ErrorsApart := by
  rw [ErrorsApart, visible_eq, descendants_eq, if_neg hkind, List.filter_cons, List.filter_cons,
    List.filter_flatMap, List.filter_flatMap, List.flatMap_congr h]

/-- An error over leaves that are no errors. -/
theorem errorsApart_of_error (hkind : node.kind = .error)
    (h : ∀ child ∈ node.children, child.children = [] ∧ child.kind ≠ .error) :
    node.ErrorsApart := by
  have hnone : ∀ child ∈ node.children, child.descendants.filter isError = [] := by
    intro child hmem
    obtain ⟨hleaf, hchild⟩ := h child hmem
    rw [descendants_eq, hleaf]
    simp [isError, hchild]
  rw [ErrorsApart, visible_eq, descendants_eq, if_pos hkind, List.filter_cons, List.filter_cons,
    List.filter_flatMap, List.flatMap_eq_nil_iff.mpr hnone, List.filter_nil]

end Node

theorem Covers.errorsApart {textEnd : Location} {lo hi : Nat} {nodes : List Node}
    {tokens : List Token} (h : Covers textEnd lo hi nodes tokens) :
    ∀ node ∈ nodes, node.ErrorsApart := by
  induction h with
  | nil => simp
  | trivia _ _ _ _ ih => exact List.forall_mem_cons.mpr ⟨Node.errorsApart_of_leaf rfl, ih⟩
  | leaf _ _ _ _ _ _ ih => exact List.forall_mem_cons.mpr ⟨Node.errorsApart_of_leaf rfl, ih⟩
  | missing _ _ ih => exact List.forall_mem_cons.mpr ⟨Node.errorsApart_of_leaf rfl, ih⟩
  | string _ hquoted _ _ ih =>
    refine List.forall_mem_cons.mpr ⟨Node.errorsApart_of_children nofun fun part hmem => ?_, ih⟩
    exact Node.errorsApart_of_leaf (@Node.formed_of_mem_stringParts textEnd _ hquoted _ hmem).1
  | composite hkind _ _ _ ih₁ ih₂ =>
    refine List.forall_mem_cons.mpr ⟨?_, ih₂⟩
    rcases hkind with hkind | ⟨rfl, hleaves⟩
    · refine Node.errorsApart_of_children ?_ ih₁
      rintro rfl
      cases hkind
    · exact Node.errorsApart_of_error rfl hleaves

/-- What is found of a text outside of errors is every error of its tree. -/
theorem errors_parse (chars : List Char) :
    (parse chars none).root.errors = (parse chars none).root.descendants.filter Node.isError := by
  obtain ⟨hi, -, hcovers⟩ := Parse.root_covers chars
  have hkind : (parse chars none).root.kind ≠ .error := by
    rw [Parse.parse_none_root]
    nofun
  exact Node.errorsApart_of_children hkind hcovers.errorsApart

end Azsl
