/-
Azsl.Proofs.Expression.Reading — the nodes that expressions are read off from.

`Stands` says that a node stands for an expression, and there is one lemma for each form: a node
with these children, which stand for these parts, stands for the whole.
-/
import Azsl.Proofs.Expression.Tree
import Azsl.Proofs.Syntax.Links

namespace Azsl

theorem sourceOf_eq {chars : List Char} {node : Node} {word : String}
    (h : sliceBytes? chars node.start.byte node.stop.byte = some word.toList) :
    Symbols.sourceOf (.ofChars chars) node = word := by
  have hslice : (SourceText.ofChars chars).slice node.start.byte node.stop.byte
      = (sliceBytes? chars node.start.byte node.stop.byte).getD [] := rfl
  rw [Symbols.sourceOf, hslice, h, Option.getD_some, String.ofList_toList]

/-- A token behind the arguments is none. -/
theorem Expr.readAll_append_token (text : SourceText) (nodes : List Node) (start stop : Location) :
    readAll text (nodes ++ [.leaf .token start stop]) = readAll text nodes := by
  induction nodes with
  | nil => rfl
  | cons node nodes ih => rw [List.cons_append, readAll, readAll, ih]

namespace Node

/-- There is no error in a node. -/
def Clean (node : Node) : Prop :=
  ∀ below ∈ node.descendants, below.kind ≠ .error

variable {kind : NodeKind} {start stop : Location} {children : List Node}

@[simp] theorem clean_build :
    (build kind start stop children).Clean ↔ kind ≠ .error ∧ ∀ child ∈ children, child.Clean := by
  rw [Clean, descendants_eq, List.forall_mem_cons]
  refine and_congr_right fun _ => ⟨fun h child hchild below hbelow => ?_, fun h below hbelow => ?_⟩
  · exact h below (List.mem_flatMap.mpr ⟨child, hchild, hbelow⟩)
  · obtain ⟨child, hchild, hbelow⟩ := List.mem_flatMap.mp hbelow
    exact h child hchild below hbelow

@[simp] theorem clean_ofChildren :
    (ofChildren kind children).Clean ↔ kind ≠ .error ∧ ∀ child ∈ children, child.Clean :=
  clean_build

@[simp] theorem clean_leaf : (leaf kind start stop).Clean ↔ kind ≠ .error := by
  simp [leaf]

end Node

/-- A node that stands for an expression, and has no error in it. -/
structure Stands (chars : List Char) (e : Expr) (node : Node) : Prop where
  kind_eq : node.kind = .expression
  clean : node.Clean
  read_eq : Expr.read (.ofChars chars) node = some e

namespace Stands

-- The equations of `read` take long to derive, and all the forms below rewrite with them: they are
-- derived here, before the first form.
attribute [local simp] Expr.read

variable {chars : List Char} {start stop : Location}

theorem name {identifier : Identifier}
    (h : sliceBytes? chars start.byte stop.byte = some identifier.text.toList) :
    Stands chars (.name identifier)
      (.ofChildren .expression [.ofChildren .idExpression [.leaf .identifier start stop]]) where
  kind_eq := rfl
  clean := by simp
  read_eq := by
    have hsource : Symbols.sourceOf (.ofChars chars)
        (.ofChildren .idExpression [.leaf .identifier start stop]) = identifier.text :=
      sourceOf_eq h
    show (Identifier.ofText? _).map Expr.name = _
    rw [hsource, Identifier.ofText?_text]
    rfl

theorem number {numeral : Numeral} {kind : NodeKind} (hkind : kind ≠ .error)
    (h : sliceBytes? chars start.byte stop.byte = some numeral.text.toList) :
    Stands chars (.number numeral)
      (.ofChildren .expression [.ofChildren .literal [.leaf kind start stop]]) where
  kind_eq := rfl
  clean := by simp [hkind]
  read_eq := by
    have hsource : Symbols.sourceOf (.ofChars chars)
        (.ofChildren .literal [.leaf kind start stop]) = numeral.text :=
      sourceOf_eq h
    show (Numeral.ofText? _).map Expr.number = _
    rw [hsource, Numeral.ofText?_text]
    rfl

variable {e : Expr} {node : Node}

/-- A list of one expression. -/
theorem read_list (h : Stands chars e node) :
    Expr.read (.ofChars chars) (.ofChildren .expressionExt [node]) = some e := by
  rw [← h.read_eq]
  show Expr.read _ (.mk _ [node]) = _
  rw [Expr.read, h.kind_eq]

/-- Parentheses change nothing. -/
theorem group (h : Stands chars e node) (start' stop' : Location) :
    Stands chars e (.ofChildren .expression
      [.leaf .token start stop, .ofChildren .expressionExt [node], .leaf .token start' stop']) where
  kind_eq := rfl
  clean := by simp [h.clean]
  read_eq := h.read_list

theorem member (h : Stands chars e node) {field : Identifier} {start' stop' : Location}
    (hfield : sliceBytes? chars start.byte stop.byte = some field.text.toList) :
    Stands chars (.member e field) (.ofChildren .expression
      [node, .leaf .token start' stop', .ofChildren .idExpression [.leaf .identifier start stop]])
    where
  kind_eq := rfl
  clean := by simp [h.clean]
  read_eq := by
    have hsource : Symbols.sourceOf (.ofChars chars)
        (.ofChildren .idExpression [.leaf .identifier start stop]) = field.text :=
      sourceOf_eq hfield
    show Expr.read _ (.mk _ [node, .leaf .token start' stop', _]) = _
    rw [Expr.read, h.kind_eq]
    show (Expr.read _ node).bind _ = _
    rw [h.read_eq, Option.bind_some, hsource, Identifier.ofText?_text]
    rfl

theorem index {array position : Expr} {first third : Node} (harray : Stands chars array first)
    (hposition : Stands chars position third) (start' stop' : Location) :
    Stands chars (.index array position) (.ofChildren .expression
      [first, .leaf .token start stop, third, .leaf .token start' stop']) where
  kind_eq := rfl
  clean := by
    simp [harray.clean, hposition.clean]
  read_eq := by
    show Expr.read _ (.mk _ [first, .leaf .token start stop, third, .leaf .token start' stop']) = _
    rw [Expr.read, harray.kind_eq, hposition.kind_eq]
    show (Expr.read _ first).bind _ = _
    rw [harray.read_eq, Option.bind_some, hposition.read_eq]
    rfl

theorem call {function : Expr} {arguments : List Expr} {first : Node} {inner : List Node}
    (hfunction : Stands chars function first) (hclean : ∀ node ∈ inner, node.Clean)
    (harguments : Expr.readAll (.ofChars chars) inner = some arguments) :
    Stands chars (.call function arguments) (.ofChildren .expression
      [first, .ofChildren .argumentList inner]) where
  kind_eq := rfl
  clean := by
    simpa [hfunction.clean] using hclean
  read_eq := by
    show Expr.read _ (.mk _ [first, .mk _ inner]) = _
    rw [Expr.read, hfunction.kind_eq]
    show (Expr.read _ first).bind _ = _
    rw [hfunction.read_eq, Option.bind_some, harguments]
    rfl

theorem stepped (h : Stands chars e node) {operator : Expr.Step}
    (hoperator : sliceBytes? chars start.byte stop.byte = some operator.text.toList) :
    Stands chars (.stepped e operator) (.ofChildren .expression
      [node, .ofChildren .postfixUnaryOperator [.leaf .token start stop]]) where
  kind_eq := rfl
  clean := by simp [h.clean]
  read_eq := by
    have hsource : Symbols.sourceOf (.ofChars chars)
        (.ofChildren .postfixUnaryOperator [.leaf .token start stop]) = operator.text :=
      sourceOf_eq hoperator
    show Expr.read _ (.mk _ [node, .mk _ [_]]) = _
    rw [Expr.read, h.kind_eq]
    show (Expr.read _ node).bind _ = _
    rw [h.read_eq, Option.bind_some]
    show (Spelling.ofText? _ (Symbols.sourceOf _ (.ofChildren .postfixUnaryOperator _))).map _ = _
    rw [hsource, Spelling.ofText?_text]
    rfl

theorem signed (h : Stands chars e node) {operator : Expr.Sign}
    (hoperator : sliceBytes? chars start.byte stop.byte = some operator.text.toList) :
    Stands chars (.signed operator e) (.ofChildren .expression
      [.ofChildren .prefixUnaryOperator [.leaf .token start stop], node]) where
  kind_eq := rfl
  clean := by simp [h.clean]
  read_eq := by
    have hsource : Symbols.sourceOf (.ofChars chars)
        (.ofChildren .prefixUnaryOperator [.leaf .token start stop]) = operator.text :=
      sourceOf_eq hoperator
    obtain ⟨label, inner⟩ := node
    have hkind : label.kind = .expression := h.kind_eq
    show Expr.read _ (.mk _ [_, .mk label inner]) = _
    rw [Expr.read, hkind]
    show (Spelling.ofText? _ (Symbols.sourceOf _ (.ofChildren .prefixUnaryOperator _))).bind _ = _
    rw [hsource, Spelling.ofText?_text, Option.bind_some, h.read_eq]
    rfl

variable {left right : Expr} {first third : Node}

theorem binary (hleft : Stands chars left first) (hright : Stands chars right third)
    {operator : Expr.Binary}
    (hoperator : sliceBytes? chars start.byte stop.byte = some operator.text.toList) :
    Stands chars (.binary operator left right) (.ofChildren .expression
      [first, .ofChildren .binaryOperator [.leaf .token start stop], third]) where
  kind_eq := rfl
  clean := by
    simp [hleft.clean, hright.clean]
  read_eq := by
    have hsource : Symbols.sourceOf (.ofChars chars)
        (.ofChildren .binaryOperator [.leaf .token start stop]) = operator.text :=
      sourceOf_eq hoperator
    show Expr.read _ (.mk _ [first, _, third]) = _
    rw [Expr.read, hleft.kind_eq, hright.kind_eq]
    show (Spelling.ofText? _ (Symbols.sourceOf _ (.ofChildren .binaryOperator _))).bind _ = _
    rw [hsource, Spelling.ofText?_text, Option.bind_some, hleft.read_eq, Option.bind_some,
      hright.read_eq]
    rfl

theorem assignment (hleft : Stands chars left first) (hright : Stands chars right third)
    {operator : Expr.Assign}
    (hoperator : sliceBytes? chars start.byte stop.byte = some operator.text.toList) :
    Stands chars (.assignment operator left right) (.ofChildren .expression
      [first, .ofChildren .assignmentOperator [.leaf .token start stop],
        .ofChildren .expressionExt [third]]) where
  kind_eq := rfl
  clean := by
    simp [hleft.clean, hright.clean]
  read_eq := by
    have hsource : Symbols.sourceOf (.ofChars chars)
        (.ofChildren .assignmentOperator [.leaf .token start stop]) = operator.text :=
      sourceOf_eq hoperator
    show Expr.read _ (.mk _ [first, _, .ofChildren .expressionExt [third]]) = _
    rw [Expr.read, hleft.kind_eq]
    show (Spelling.ofText? _ (Symbols.sourceOf _ (.ofChildren .assignmentOperator _))).bind _ = _
    rw [hsource, Spelling.ofText?_text, Option.bind_some, hleft.read_eq, Option.bind_some,
      hright.read_list]
    rfl

theorem conditional {condition yes no : Expr} {first third fifth : Node}
    (hcondition : Stands chars condition first) (hyes : Stands chars yes third)
    (hno : Stands chars no fifth) (start' stop' : Location) :
    Stands chars (.conditional condition yes no) (.ofChildren .expression
      [first, .leaf .token start stop, .ofChildren .expressionExt [third],
        .leaf .token start' stop', .ofChildren .expressionExt [fifth]]) where
  kind_eq := rfl
  clean := by
    simp [hcondition.clean, hyes.clean,
      hno.clean]
  read_eq := by
    show Expr.read _ (.mk _ [first, .leaf .token start stop, .ofChildren .expressionExt [third],
      .leaf .token start' stop', .ofChildren .expressionExt [fifth]]) = _
    rw [Expr.read, hcondition.kind_eq]
    show (Expr.read _ first).bind _ = _
    rw [hcondition.read_eq, Option.bind_some, hyes.read_list, Option.bind_some, hno.read_list]
    rfl

end Stands

end Azsl
