/-
Azsl.Syntax.Node — syntax trees.

A node is a label and its children in source order. The label holds the kind, where the node
starts and ends, whether there is an error in it, and whether an edit touched it since it was
parsed. `outline` lists the labels in pre-order with their depths; two trees are the same
exactly when their outlines are.
-/
import Azsl.Syntax.Kind
import Azsl.Text.Edit

namespace Azsl

/-- All of a node but its children. -/
structure Label where
  kind : NodeKind
  start : Location
  stop : Location
  /-- The node or one below it is an error. -/
  hasError : Bool
  /-- An edit touched the node since it was parsed. -/
  hasChanges : Bool
deriving DecidableEq, Repr, Inhabited

/-- A syntax node with everything below it. -/
inductive Node where
  | mk (label : Label) (children : List Node)
deriving Repr, Inhabited

namespace Node

/-- All of the node but its children. -/
def label : Node → Label
  | mk label _ => label

/-- The nodes right below, in source order. -/
def children : Node → List Node
  | mk _ children => children

/-- What the node stands for. -/
def kind (node : Node) : NodeKind := node.label.kind

/-- Where the node starts. -/
def start (node : Node) : Location := node.label.start

/-- Where the node ends. -/
def stop (node : Node) : Location := node.label.stop

/-- Whether the node or one below it is an error. -/
def hasError (node : Node) : Bool := node.label.hasError

/-- Whether an edit touched the node since it was parsed. -/
def hasChanges (node : Node) : Bool := node.label.hasChanges

/-! ## Building -/

/-- A fresh node over given children. It has an error if it is one or a child has one. -/
def build (kind : NodeKind) (start stop : Location) (children : List Node) : Node :=
  mk ⟨kind, start, stop, kind == .error || children.any hasError, false⟩ children

/-- A node without children. -/
def leaf (kind : NodeKind) (start stop : Location) : Node :=
  build kind start stop []

/-- A node that reaches from its first child to its last. -/
def ofChildren (kind : NodeKind) (children : List Node) : Node :=
  build kind ((children.head?.map start).getD .origin) ((children.getLast?.map stop).getD .origin)
    children

/-! ## Walking -/

mutual

/-- Labels of the node and all below it in pre-order, each with its depth. -/
def outlineAt (depth : Nat) : Node → List (Nat × Label)
  | mk label children => (depth, label) :: outlineAll (depth + 1) children

/-- Outlines of nodes in a row. -/
def outlineAll (depth : Nat) : List Node → List (Nat × Label)
  | [] => []
  | child :: rest => outlineAt depth child ++ outlineAll depth rest

end

/-- Labels of the node and all below it in pre-order, each with its depth. -/
def outline (node : Node) : List (Nat × Label) :=
  outlineAt 0 node

mutual

/-- The node and all below it in pre-order. -/
def descendants : Node → List Node
  | mk label children => mk label children :: descendantsAll children

/-- All nodes of some trees in a row. -/
def descendantsAll : List Node → List Node
  | [] => []
  | child :: rest => descendants child ++ descendantsAll rest

end

mutual

/-- The node and all below it in pre-order, but nothing from inside an error. -/
def visible : Node → List Node
  | mk label children =>
    mk label children :: (if label.kind = .error then [] else visibleAll children)

/-- The visible nodes of some trees in a row. -/
def visibleAll : List Node → List Node
  | [] => []
  | child :: rest => visible child ++ visibleAll rest

end

/-- The errors below a node that are not inside another error. -/
def errors (node : Node) : List Node :=
  node.visible.filter (·.kind == .error)

mutual

/-- The named nodes as nested lists of kind names. -/
def sexp : Node → String
  | mk label children => "(" ++ label.kind.name ++ sexpAll children ++ ")"

/-- The named nodes among some nodes in a row, each behind a space. -/
def sexpAll : List Node → String
  | [] => ""
  | child :: rest =>
    (if child.kind.isNamed then " " ++ sexp child else "") ++ sexpAll rest

end

/-! ## Changing -/

mutual

/-- Change every label. -/
def mapLabels (f : Label → Label) : Node → Node
  | mk label children => mk (f label) (mapLabelsAll f children)

/-- Change every label of some trees in a row. -/
def mapLabelsAll (f : Label → Label) : List Node → List Node
  | [] => []
  | child :: rest => mapLabels f child :: mapLabelsAll f rest

end

mutual

/-- Build the node anew at the same bytes, with points found by `point` and fresh flags. -/
def relocate (point : Nat → Point) : Node → Node
  | mk label children =>
    build label.kind ⟨label.start.byte, point label.start.byte⟩
      ⟨label.stop.byte, point label.stop.byte⟩ (relocateAll point children)

/-- Build some trees in a row anew. -/
def relocateAll (point : Nat → Point) : List Node → List Node
  | [] => []
  | child :: rest => relocate point child :: relocateAll point rest

end

end Node

namespace Label

/-- Keep a label up with an edit. What ends before the edit stays, what starts behind it
shifts. What meets or touches it is marked as changed; an end inside the replaced stretch
moves to the end of the replacement, a start there goes no further than that. -/
def edit (edit : Edit) (label : Label) : Label :=
  if label.stop.byte < edit.start.byte then label
  else if edit.oldEnd.byte < label.start.byte then
    { label with start := edit.shift label.start, stop := edit.shift label.stop }
  else
    let startByte := min edit.newEnd.byte (max edit.start.byte label.start.byte)
    { label with
      hasChanges := true
      start :=
        if label.start.byte < edit.start.byte then label.start
        else ⟨startByte,
          if startByte = edit.start.byte then edit.start.point else edit.newEnd.point⟩
      stop := if edit.oldEnd.byte < label.stop.byte then edit.shift label.stop else edit.newEnd }

end Label

/-- How many top level declarations were copied from an earlier tree, and how many parsed. -/
structure ReuseStats where
  reused : Nat
  reparsed : Nat
deriving DecidableEq, Repr, Inhabited

/-- The tree of a whole text. -/
structure SyntaxTree where
  root : Node
  stats : ReuseStats
deriving Repr, Inhabited

namespace SyntaxTree

/-- Keep every node up with an edit of the text. -/
def edit (tree : SyntaxTree) (edit : Edit) : SyntaxTree :=
  { tree with root := tree.root.mapLabels (Label.edit edit) }

end SyntaxTree

end Azsl
