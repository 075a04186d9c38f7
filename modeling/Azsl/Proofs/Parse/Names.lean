/-
Azsl.Proofs.Parse.Names — the names in a tree, by where they stand.

What is passed over is never a name, so no error hides one (`Yields.visible_of_identifier`). Names
are leaves with a width, and nodes do not overlap. So the first name in a node is the first one of
the whole tree that does not start before the node, and nodes that start at the same byte have the
same first name (`Parse.firstName_eq`).
-/
import Azsl.Proofs.Grammar.Yield
import Azsl.Proofs.Parse.Leaves
import Azsl.Proofs.Parse.Lookup

namespace Azsl

open ParseState

/-! ## Names and errors -/

/-- A leaf that is no name. -/
def Node.Nameless (node : Node) : Prop :=
  node.children = [] ∧ node.kind ≠ .identifier

theorem Node.nameless_leaf {kind : NodeKind} (h : kind ≠ .identifier) (start stop : Location) :
    (leaf kind start stop).Nameless :=
  ⟨rfl, h⟩

/-- The parts of a string are no names. -/
theorem nameless_of_mem_stringParts {token : Token} {part : Node}
    (h : part ∈ Production.stringParts token) : part.Nameless := by
  rw [Production.stringParts] at h
  rcases List.mem_append.mp h with h | h
  · rcases List.mem_cons.mp h with rfl | h
    · exact Node.nameless_leaf (by decide) _ _
    · obtain ⟨start, stop, -, rfl⟩ := Node.escapes_eq_leaf h
      exact Node.nameless_leaf (by decide) _ _
  · obtain rfl := List.mem_singleton.mp h
    exact Node.nameless_leaf (by decide) _ _

/-- What is passed over is no name. -/
theorem Token.PassedAs.nameless {native : Bool} {token : Token} {node : Node}
    (h : token.PassedAs native node) : node.Nameless := by
  rcases h with ⟨rfl, -⟩ | rfl
  · exact ⟨rfl, (Node.kind_triviaNode token).2⟩
  · exact Node.nameless_leaf (by decide) _ _

/-- There is no name below a node over leaves that are none. -/
theorem Node.kind_of_nameless {node below : Node} (h : ∀ child ∈ node.children, child.Nameless)
    (hmem : below ∈ node.children.flatMap descendants) : below.kind ≠ .identifier := by
  obtain ⟨child, hchild, hbelow⟩ := List.mem_flatMap.mp hmem
  obtain ⟨hleaf, hkind⟩ := h child hchild
  rw [descendants_eq, hleaf] at hbelow
  rwa [List.mem_singleton.mp hbelow]

/-- No error hides a name. -/
theorem Yields.visible_of_identifier {native : Bool} {textEnd : Location} {nodes : List Node}
    {tokens : List Token} (h : Yields native textEnd nodes tokens) {name : Node}
    (hmem : name ∈ nodes.flatMap Node.descendants) (hkind : name.kind = .identifier) :
    name ∈ nodes.flatMap Node.visible := by
  -- a name is the first node, below it, or among the others
  have hcons : ∀ {first : Node} {rest : List Node},
      name ∈ (first :: rest).flatMap Node.descendants →
      (name ∈ first.children.flatMap Node.descendants → name ∈ first.visible) →
      (name ∈ rest.flatMap Node.descendants → name ∈ rest.flatMap Node.visible) →
      name ∈ (first :: rest).flatMap Node.visible := by
    intro first rest hmem hbelow hrest
    rw [List.flatMap_cons]
    rcases Node.mem_descendants_cons.mp hmem with rfl | hmem | hmem
    · exact List.mem_append_left _ (Node.mem_visible_self _)
    · exact List.mem_append_left _ (hbelow hmem)
    · exact List.mem_append_right _ (hrest hmem)
  induction h with
  | nil => cases hmem
  | trivia _ _ ih => exact hcons hmem (fun hnone => by cases hnone) ih
  | leaf _ _ _ _ ih => exact hcons hmem (fun hnone => by cases hnone) ih
  | string _ _ ih =>
    refine hcons hmem (fun hbelow => absurd hkind (Node.kind_of_nameless ?_ hbelow)) ih
    exact fun part hpart => nameless_of_mem_stringParts hpart
  | @composite kind _ _ _ _ hcomposite _ _ _ ih₁ ih₂ =>
    refine hcons hmem (fun hbelow => Node.mem_visible_of_below ?_ (ih₁ hbelow)) ih₂
    rintro (rfl : kind = _)
    cases hcomposite
  | error hover _ ih =>
    refine hcons hmem (fun hbelow => absurd hkind (Node.kind_of_nameless ?_ hbelow)) ih
    intro child hchild
    obtain ⟨token, -, hpassed⟩ := exists_partner hover.flip hchild
    exact Token.PassedAs.nameless hpassed
  | missing _ ih => exact hcons hmem (fun hnone => by cases hnone) ih

/-! ## Whole files -/

namespace Parse

variable {chars : List Char} {past : List Token} {state : ParseState}

theorem makes_declare (fuel : Nat) (h : state.Made false past) :
    Makes false past state (declare (.upTo fuel) state) := by
  cases hrun : Production.topLevelDeclaration (.upTo fuel) 0 state with
  | ok last =>
    have htwin : Twin (.upTo fuel) (.upTo fuel) 0 _ Unknown true [] [] _ _ := .topLevelDeclaration
    rw [declare_of_ok fuel hrun]
    exact htwin.makes (Grammar.upTo_advances fuel 0) (Grammar.upTo_builds fuel 0)
      (Grammar.upTo_making fuel 0) (fun hnative => by cases hnative) h trivial hrun
  | error stop =>
    rw [declare, hrun]
    exact makes_recovery _ h

theorem makes_declareAll (steps fuel : Nat) (h : state.Made false past) :
    Makes false past state (declareAll (.upTo steps) fuel state) := by
  induction fuel generalizing past state with
  | zero => exact .refl h
  | succ fuel ih =>
    rw [declareAll]
    split
    · exact .refl h
    · exact (makes_declare steps h).trans fun _ hmade => ih hmade

/-- The children of the root are made of the tokens of the text. -/
theorem yields_children (chars : List Char) :
    Yields false (Location.origin.advance chars) (parse chars none).root.children
      (tokenize chars) := by
  have hinitial : (initial chars).Made false [] := ⟨.nil, fun _ _ hnative => by cases hnative⟩
  have hfinal : Makes false [] (initial chars) (final chars) :=
    (makes_declareAll _ _ hinitial).trans fun _ hmade => makes_flush hmade
  obtain ⟨taken, hstream, ⟨hyields, -⟩, -⟩ := hfinal
  rw [final_stream, List.append_nil, initial_stream] at hstream
  rw [final_textEnd] at hyields
  rw [parse_none_root, hstream]
  exact hyields

/-- Every name of a tree is a leaf with a width. -/
theorem solid_of_identifier {name : Node} (hmem : name ∈ (parse chars none).root.descendants)
    (hkind : name.kind = .identifier) : name.Solid (tokenize chars) := by
  refine solidThroughout_root chars name ?_
  rw [Node.descendants_eq] at hmem
  rcases List.mem_cons.mp hmem with rfl | hmem
  · exact Node.mem_visible_self _
  · exact Node.mem_visible_of_below (by simp [root_kind])
      ((yields_children chars).visible_of_identifier hmem hkind)

end Parse

/-! ## First names -/

namespace Node

/-- The first name in a node. -/
def firstName? (node : Node) : Option Node :=
  node.descendants.find? (·.kind == .identifier)

/-- A node spans its children, these do not overlap, and a name is a leaf with a width. -/
structure Lined (size : Nat) (node : Node) : Prop extends node.Spans size where
  apart : node.Ordered
  leaf : node.kind = .identifier → node.children = []
  wide : node.kind = .identifier → node.start.byte < node.stop.byte

variable {size : Nat} {root node : Node}

theorem lined_of_child (h : ∀ below ∈ root.descendants, below.Lined size) {child : Node}
    (hchild : child ∈ root.children) : ∀ below ∈ child.descendants, below.Lined size :=
  fun below hbelow =>
    h below (mem_descendants_of_below (List.mem_flatMap.mpr ⟨child, hchild, hbelow⟩))

/-- A node spans all nodes below it. -/
theorem spans_below (h : ∀ below ∈ root.descendants, below.Lined size)
    (hmem : node ∈ root.descendants) :
    root.start.byte ≤ node.start.byte ∧ node.stop.byte ≤ root.stop.byte := by
  induction root using Node.rec_children with
  | step root ih =>
    have hroot := h root root.self_mem_descendants
    rw [descendants_eq] at hmem
    rcases List.mem_cons.mp hmem with rfl | hmem
    · exact ⟨Nat.le_refl _, Nat.le_refl _⟩
    · obtain ⟨child, hchild, hbelow⟩ := List.mem_flatMap.mp hmem
      have haround := hroot.around child hchild
      have hspans := ih child hchild (lined_of_child h hchild) hbelow
      omega

/-- A name that does not start before a byte. -/
def isNameFrom (byte : Nat) (node : Node) : Bool :=
  node.kind == .identifier && decide (byte ≤ node.start.byte)

theorem isNameFrom_iff {byte : Nat} :
    node.isNameFrom byte = true ↔ node.kind = .identifier ∧ byte ≤ node.start.byte := by
  rw [isNameFrom, Bool.and_eq_true, beq_iff_eq, decide_eq_true_iff]

/-- The names in the children before one end before this one starts. -/
theorem find?_before (h : ∀ below ∈ root.descendants, below.Lined size) {left right : List Node}
    {child : Node} (hsplit : root.children = left ++ child :: right) {byte : Nat}
    (hbyte : child.start.byte ≤ byte) :
    (left.flatMap descendants).find? (isNameFrom byte) = none := by
  refine List.find?_eq_none.mpr fun name hname hfrom => ?_
  obtain ⟨sibling, hsibling, hbelow⟩ := List.mem_flatMap.mp hname
  have hmem : sibling ∈ root.children := hsplit ▸ List.mem_append_left _ hsibling
  have hlined := lined_of_child h hmem
  have hordered : root.children.Pairwise _ := (h root root.self_mem_descendants).apart
  rw [hsplit] at hordered
  have hapart := (List.pairwise_append.mp hordered).2.2 sibling hsibling child List.mem_cons_self
  have hstop := (spans_below hlined hbelow).2
  obtain ⟨hkind, hle⟩ := isNameFrom_iff.mp hfrom
  have hwide := (hlined name hbelow).wide hkind
  omega

/-- The first name in a node is the first one of the tree that does not start before the node. -/
theorem find?_of_firstName? (h : ∀ below ∈ root.descendants, below.Lined size) {name : Node}
    (hmem : node ∈ root.descendants) (hname : node.firstName? = some name) :
    root.descendants.find? (isNameFrom node.start.byte) = some name := by
  induction root using Node.rec_children with
  | step root ih =>
    rw [descendants_eq] at hmem
    rcases List.mem_cons.mp hmem with rfl | hmem
    · -- no name in the tree starts before its root
      obtain ⟨hkind, before, behind, hsplit, hbefore⟩ := List.find?_eq_some_iff_append.mp hname
      have hbelow : name ∈ node.descendants := by rw [hsplit]; simp
      refine List.find?_eq_some_iff_append.mpr ⟨?_, before, behind, hsplit, fun other hother => ?_⟩
      · exact isNameFrom_iff.mpr ⟨beq_iff_eq.mp hkind, (spans_below h hbelow).1⟩
      · rw [isNameFrom, (Bool.not_eq_true' _).mp (hbefore other hother)]
        rfl
    · obtain ⟨child, hchild, hbelow⟩ := List.mem_flatMap.mp hmem
      have hinner := ih child hchild (lined_of_child h hchild) hbelow
      have hspans := spans_below (lined_of_child h hchild) hbelow
      obtain ⟨left, right, hsplit⟩ := List.append_of_mem hchild
      have hself : ¬ root.isNameFrom node.start.byte = true := fun hfrom => by
        have hleaf := (h root root.self_mem_descendants).leaf (isNameFrom_iff.mp hfrom).1
        rw [hleaf] at hchild
        cases hchild
      rw [descendants_eq, List.find?_cons_of_neg hself, hsplit, List.flatMap_append,
        List.flatMap_cons, List.find?_append, find?_before h hsplit hspans.1, Option.none_or,
        List.find?_append, hinner]
      rfl

/-- Nodes come in the order of their starts. -/
theorem pairwise_start_le (h : ∀ below ∈ root.descendants, below.Lined size) :
    root.descendants.Pairwise fun first second => first.start.byte ≤ second.start.byte := by
  induction root using Node.rec_children with
  | step root ih =>
    have hroot := h root root.self_mem_descendants
    rw [descendants_eq, List.pairwise_cons, List.pairwise_flatMap]
    refine ⟨fun below hbelow => (spans_below h (mem_descendants_of_below hbelow)).1,
      fun child hchild => ih child hchild (lined_of_child h hchild), ?_⟩
    refine (hroot.apart).imp_of_mem fun {left right} hleft hright hle => ?_
    intro below hbelow other hother
    have hbefore := spans_below (lined_of_child h hleft) hbelow
    have hbehind := spans_below (lined_of_child h hright) hother
    have hwidth := (lined_of_child h hleft below hbelow).width
    omega

end Node

namespace Parse

variable {chars : List Char} {first second : Node}

theorem lined_of_mem {node : Node} (h : node ∈ (parse chars none).root.descendants) :
    node.Lined (byteLength chars) :=
  ⟨spans_of_mem h, ordered_of_mem h, fun hkind => (solid_of_identifier h hkind).leaf (.inr hkind),
    fun hkind => (solid_of_identifier h hkind).width (.inr hkind)⟩

/-- Nodes with names that start at the same byte have the same first name. -/
theorem firstName_eq (hfirst : first ∈ (parse chars none).root.descendants)
    (hsecond : second ∈ (parse chars none).root.descendants)
    (hstart : first.start.byte = second.start.byte) {name other : Node}
    (hname : first.firstName? = some name) (hother : second.firstName? = some other) :
    name = other := by
  have hlined : ∀ below ∈ (parse chars none).root.descendants, below.Lined _ :=
    fun _ hbelow => lined_of_mem hbelow
  have hfound := Node.find?_of_firstName? hlined hfirst hname
  rw [hstart, Node.find?_of_firstName? hlined hsecond hother] at hfound
  exact (Option.some.inj hfound).symm

end Parse

end Azsl
