/-
Azsl.Syntax.Focus — a node together with its place in the tree.

A focus is a node with the frames around it, innermost first: the label of the parent and the
siblings on both sides. Parents and siblings are read off the frames. Walks that need to look
around (`descendants`, `visible`) yield foci, and `namedAt` finds the smallest named node
around a stretch of text.
-/
import Azsl.Syntax.Node

namespace Azsl

/-- What surrounds a child: its parent's label and its siblings, nearest first. -/
structure Frame where
  label : Label
  before : List Node
  after : List Node

/-- A node in its place. -/
structure Focus where
  node : Node
  frames : List Frame

namespace Focus

/-- The root of a tree. -/
def ofRoot (node : Node) : Focus := ⟨node, []⟩

/-- What the node stands for. -/
def kind (focus : Focus) : NodeKind := focus.node.kind

/-! ## Relatives -/

/-- The node that this one is a child of. -/
def parent (focus : Focus) : Option Focus :=
  match focus.frames with
  | [] => none
  | frame :: outer =>
    some ⟨.mk frame.label (frame.before.reverse ++ focus.node :: frame.after), outer⟩

/-- The sibling right behind. -/
def next (focus : Focus) : Option Focus :=
  match focus.frames with
  | ⟨label, before, sibling :: after⟩ :: outer =>
    some ⟨sibling, ⟨label, focus.node :: before, after⟩ :: outer⟩
  | _ => none

/-- The sibling right before. -/
def previous (focus : Focus) : Option Focus :=
  match focus.frames with
  | ⟨label, sibling :: before, after⟩ :: outer =>
    some ⟨sibling, ⟨label, before, focus.node :: after⟩ :: outer⟩
  | _ => none

/-- The nearest sibling behind that has a property. -/
def nextWhere (p : Node → Bool) (focus : Focus) : Option Focus :=
  match focus.frames with
  | [] => none
  | frame :: outer => search frame.label (focus.node :: frame.before) frame.after outer
where
  /-- Go through the siblings that are left. -/
  search (label : Label) (before : List Node) (after : List Node) (outer : List Frame) :
      Option Focus :=
    match after with
    | [] => none
    | sibling :: rest =>
      if p sibling then some ⟨sibling, ⟨label, before, rest⟩ :: outer⟩
      else search label (sibling :: before) rest outer

/-- The nearest sibling before that has a property. -/
def previousWhere (p : Node → Bool) (focus : Focus) : Option Focus :=
  match focus.frames with
  | [] => none
  | frame :: outer => search frame.label frame.before (focus.node :: frame.after) outer
where
  /-- Go through the siblings that are left. -/
  search (label : Label) (before : List Node) (after : List Node) (outer : List Frame) :
      Option Focus :=
    match before with
    | [] => none
    | sibling :: rest =>
      if p sibling then some ⟨sibling, ⟨label, rest, after⟩ :: outer⟩
      else search label rest (sibling :: after) outer

/-- The nearest named sibling behind. -/
def nextNamed (focus : Focus) : Option Focus :=
  focus.nextWhere (·.kind.isNamed)

/-- The nearest named sibling before. -/
def previousNamed (focus : Focus) : Option Focus :=
  focus.previousWhere (·.kind.isNamed)

/-- The children of a node behind the first `before`, each in its place. -/
def spread (label : Label) (outer : List Frame) (before : List Node) : List Node → List Focus
  | [] => []
  | child :: rest =>
    ⟨child, ⟨label, before, rest⟩ :: outer⟩ :: spread label outer (child :: before) rest

/-- The children, each in its place. -/
def children (focus : Focus) : List Focus :=
  spread focus.node.label focus.frames [] focus.node.children

/-- The named children, each in its place. -/
def namedChildren (focus : Focus) : List Focus :=
  focus.children.filter (·.kind.isNamed)

/-- The node reached by child indices, among all children or among the named ones. -/
def follow (named : Bool) (focus : Focus) : List Nat → Option Focus
  | [] => some focus
  | index :: rest =>
    match (if named then focus.namedChildren else focus.children)[index]? with
    | none => none
    | some child => child.follow named rest

/-! ## Walks -/

mutual

/-- The node and all below it in pre-order, each in its place. With `opaqueErrors`, nothing
from inside an error. -/
def walk (opaqueErrors : Bool) (frames : List Frame) : Node → List Focus
  | .mk label children =>
    ⟨.mk label children, frames⟩ ::
      (if opaqueErrors ∧ label.kind = .error then []
       else walkAll opaqueErrors label frames [] children)

/-- Walk through children in a row. -/
def walkAll (opaqueErrors : Bool) (label : Label) (outer : List Frame) (before : List Node) :
    List Node → List Focus
  | [] => []
  | child :: rest =>
    walk opaqueErrors (⟨label, before, rest⟩ :: outer) child
      ++ walkAll opaqueErrors label outer (child :: before) rest

end

/-- The node and all below it in pre-order. -/
def descendants (focus : Focus) : List Focus :=
  walk false focus.frames focus.node

/-- The node and all below it in pre-order, but nothing from inside an error. -/
def visible (focus : Focus) : List Focus :=
  walk true focus.frames focus.node

/-- The visible nodes of one kind. -/
def ofKind (focus : Focus) (kind : NodeKind) : List Focus :=
  focus.visible.filter (·.kind == kind)

/-! ## Looking up a stretch of text -/

/-- What a child says to a search for the stretch from `start` to `stop`. -/
inductive Fit where
  /-- It ends too early; go on to the next one. -/
  | skip
  /-- It starts too late, and so do all behind it. -/
  | past
  /-- It spans the stretch. -/
  | spans
deriving DecidableEq

/-- A child must reach the end of the stretch and exceed its start, unless the child is empty,
and must not start behind the start of the stretch. -/
def fit (start stop : Point) (child : Node) : Fit :=
  if child.stop.point < stop then .skip
  else if child.stop.point ≤ start ∧ child.start.point < start then .skip
  else if start < child.start.point then .past
  else .spans

mutual

/-- Go down from a node that spans the stretch; `best` is the innermost named node so far. An
error is not entered. -/
def descend (start stop : Point) (best : Focus) (frames : List Frame) : Node → Focus
  | .mk label children =>
    let here : Focus := ⟨.mk label children, frames⟩
    let best := if label.kind.isNamed then here else best
    if label.kind = .error then here
    else descendInto start stop best label frames [] children

/-- Go down into the first child that spans the stretch. -/
def descendInto (start stop : Point) (best : Focus) (label : Label) (outer : List Frame)
    (before : List Node) : List Node → Focus
  | [] => best
  | child :: rest =>
    match fit start stop child with
    | .skip => descendInto start stop best label outer (child :: before) rest
    | .past => best
    | .spans => descend start stop best (⟨label, before, rest⟩ :: outer) child

end

/-- The smallest named node around a stretch of text. Errors are found but not entered. -/
def namedAt (focus : Focus) (start stop : Point) : Focus :=
  descendInto start stop focus focus.node.label focus.frames [] focus.node.children

end Focus

end Azsl
