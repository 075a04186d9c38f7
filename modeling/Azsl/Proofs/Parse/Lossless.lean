/-
Azsl.Proofs.Parse.Lossless — the tree of a text is well formed and loses no token.

`root_covers` says that the children of the root cover the tokens of the text. What that means
for the tree is read off here: how every node stands to its children, where errors may stand, and
that the leaves account for every token exactly once.
-/
import Azsl.Proofs.Grammar.Sync
import Azsl.Proofs.Parse.Fresh
import Azsl.Proofs.Syntax.Links

namespace Azsl

namespace Node

/-! ## What leaves account for -/

/-- An error of no width and without children. -/
def isGap (node : Node) : Bool :=
  node.kind == .error && node.children.isEmpty && node.start.byte == node.stop.byte

mutual

/-- The leaves of a tree in pre-order. A string is kept whole, and gaps are left out. -/
def units : Node → List Node
  | mk label [] => if (mk label []).isGap then [] else [mk label []]
  | mk label (child :: rest) =>
    if label.kind = .stringLiteral then [mk label (child :: rest)]
    else unitsAll (child :: rest)

/-- The leaves of some trees in a row. -/
def unitsAll : List Node → List Node
  | [] => []
  | child :: rest => units child ++ unitsAll rest

end

/-- How a leaf or a string stands for tokens in a row. -/
inductive Accounts : Node → List Token → Prop
  /-- One token as a leaf. -/
  | leaf {node token} : node.children = [] → node.start = token.start →
      node.stop = token.stop → Accounts node [token]
  /-- Neighbours with no trivia in between as one leaf. -/
  | joined {node first more last} : node.children = [] →
      (∀ token ∈ first :: more, token.kind.isTrivia = false) →
      (first :: more).getLast? = some last → node.start = first.start → node.stop = last.stop →
      Accounts node (first :: more)
  /-- A string as a node over its quotes and its escape sequences. -/
  | string {node token inner} : token.kind = .stringLiteral →
      token.text.toList = '"' :: inner ++ ['"'] → node.kind = .stringLiteral →
      node.start = token.start → node.stop = token.stop →
      node.children = .leaf .token token.start (token.start.step '"') ::
        Production.escapes (token.start.step '"') inner ++
          [.leaf .token ((token.start.step '"').advance inner) token.stop] →
      Accounts node [token]

/-- The leaves of some trees account for every token of a list once and in order. -/
def Account (units : List Node) (tokens : List Token) : Prop :=
  ∃ shares : List (Node × List Token), shares.map (·.1) = units ∧
    shares.flatMap (·.2) = tokens ∧ ∀ share ∈ shares, Accounts share.1 share.2

namespace Account

theorem nil : Account [] [] := ⟨[], rfl, rfl, by simp⟩

theorem single {node : Node} {tokens : List Token} (h : Accounts node tokens) :
    Account [node] tokens :=
  ⟨[(node, tokens)], rfl, by simp, by simpa using h⟩

theorem append {units units' : List Node} {tokens tokens' : List Token}
    (h : Account units tokens) (h' : Account units' tokens') :
    Account (units ++ units') (tokens ++ tokens') := by
  obtain ⟨shares, hunits, htokens, hall⟩ := h
  obtain ⟨shares', hunits', htokens', hall'⟩ := h'
  refine ⟨shares ++ shares', by rw [List.map_append, hunits, hunits'],
    by rw [List.flatMap_append, htokens, htokens'], fun share hmem => ?_⟩
  rcases List.mem_append.mp hmem with hmem | hmem
  · exact hall share hmem
  · exact hall' share hmem

end Account

/-! ## How nodes stand to their children -/

/-- Children stand in source order and do not overlap. -/
def Ordered (node : Node) : Prop :=
  node.children.Pairwise fun first second => first.stop.byte ≤ second.start.byte

/-- What holds of every node below the root. -/
structure Formed (textEnd : Location) (node : Node) : Prop where
  width : node.start.byte ≤ node.stop.byte
  ordered : node.Ordered
  first : ∀ child, node.children.head? = some child → node.start = child.start
  last : ∀ child, node.children.getLast? = some child → node.stop = child.stop
  /-- Errors have only leaves as children. -/
  flat : node.kind = .error → ∀ child ∈ node.children, child.children = []
  /-- Errors without children stand at the end of the text. -/
  gap : node.kind = .error → node.children = [] → node.start = textEnd ∧ node.stop = textEnd

theorem formed_leaf {textEnd start stop : Location} {kind : NodeKind} (hkind : kind ≠ .error)
    (h : start.byte ≤ stop.byte) : (leaf kind start stop).Formed textEnd where
  width := h
  ordered := .nil
  first _ hchild := by cases hchild
  last _ hchild := by cases hchild
  flat hkind' := absurd hkind' hkind
  gap hkind' := absurd hkind' hkind

theorem formed_gap (textEnd : Location) : (leaf .error textEnd textEnd).Formed textEnd where
  width := Nat.le_refl _
  ordered := .nil
  first _ hchild := by cases hchild
  last _ hchild := by cases hchild
  flat _ _ hmem := by cases hmem
  gap _ _ := ⟨rfl, rfl⟩

/-- A row of nodes between two bytes. -/
abbrev Row (lo hi : Nat) (nodes : List Node) : Prop :=
  InOrder (·.start.byte) (·.stop.byte) hi lo nodes

theorem stop_ofChildren (kind : NodeKind) {children : List Node} {last : Node}
    (h : children.getLast? = some last) : (ofChildren kind children).stop = last.stop := by
  show ((children.getLast?.map stop).getD .origin) = _
  rw [h]
  rfl

/-- A node over a row of children stands where the row stands. -/
theorem Row.bounds {lo hi : Nat} {kind : NodeKind} {children : List Node}
    (h : Row lo hi children) (hne : children ≠ []) :
    lo ≤ (ofChildren kind children).start.byte ∧
      (ofChildren kind children).start.byte ≤ (ofChildren kind children).stop.byte ∧
      (ofChildren kind children).stop.byte ≤ hi := by
  cases children with
  | nil => exact absurd rfl hne
  | cons first rest =>
    have hlast := List.getLast?_eq_some_getLast (List.cons_ne_nil first rest)
    rw [← List.append_nil (first :: rest)] at h
    obtain ⟨hlo, hwidth, hhi⟩ := h.group
    rw [← stop_ofChildren kind hlast] at hwidth hhi
    exact ⟨hlo, hwidth, hhi⟩

theorem Row.formed {textEnd : Location} {lo hi : Nat} {kind : NodeKind} {children : List Node}
    (h : Row lo hi children) (hne : children ≠ [])
    (hflat : kind = .error → ∀ child ∈ children, child.children = []) :
    (ofChildren kind children).Formed textEnd where
  width := (h.bounds hne).2.1
  ordered := h.pairwise
  first child hchild := by
    have hhead : children.head? = some child := hchild
    show ((children.head?.map start).getD .origin) = _
    rw [hhead]
    rfl
  last _ hchild := stop_ofChildren kind hchild
  flat := hflat
  gap _ hnil := absurd hnil hne

/-! ## Strings -/

open Production

/-- The escape sequences among some characters stand in a row within them. -/
theorem row_escapes (here : Location) (chars : List Char) {last : Node} {hi : Nat}
    (hlo : (here.advance chars).byte ≤ last.start.byte) (hwidth : last.start.byte ≤ last.stop.byte)
    (hhi : last.stop.byte ≤ hi) : Row here.byte hi (escapes here chars ++ [last]) := by
  fun_induction escapes here chars with
  | case1 here c rest stop ih =>
    have hstep := Location.byte_step here '\\'
    have hstop : stop.byte = _ := Location.byte_step (here.step '\\') c
    refine ⟨Nat.le_refl _, ?_, ih hlo⟩
    show here.byte ≤ stop.byte
    omega
  | case2 here c rest _ ih =>
    refine (ih hlo).weaken ?_
    rw [Location.byte_step]
    omega
  | case3 here => exact ⟨hlo, hwidth, hhi⟩

/-- The parts of a string by its characters. -/
theorem stringParts_eq {token : Token} {inner : List Char}
    (h : token.text.toList = '"' :: inner ++ ['"']) :
    stringParts token = .leaf .token token.start (token.start.step '"') ::
      escapes (token.start.step '"') inner ++
        [.leaf .token ((token.start.step '"').advance inner) token.stop] := by
  have hinner : (token.text.toList.drop 1).dropLast = inner := by
    rw [h, List.cons_append, List.drop_one, List.tail_cons, List.dropLast_concat]
  rw [stringParts, hinner]

theorem stop_of_quoted {token : Token} {inner : List Char}
    (htext : token.text.toList = '"' :: inner ++ ['"']) (h : token.Quoted) :
    token.stop = ((token.start.step '"').advance inner).step '"' := by
  rw [h.2, htext, List.cons_append, Location.advance_cons, Location.advance_append]
  rfl

/-- The parts of a string stand in a row within it. -/
theorem row_stringParts {token : Token} (h : token.Quoted) :
    Row token.start.byte token.stop.byte (stringParts token) := by
  obtain ⟨inner, htext⟩ := h.1
  have hstop := congrArg Location.byte (stop_of_quoted htext h)
  rw [Location.byte_step] at hstop
  have hquote := Location.byte_step token.start '"'
  rw [stringParts_eq htext]
  refine ⟨Nat.le_refl _, ?_, row_escapes _ _ (Nat.le_refl _) ?_ (Nat.le_refl _)⟩
  · show token.start.byte ≤ (token.start.step '"').byte
    omega
  · show ((token.start.step '"').advance inner).byte ≤ token.stop.byte
    omega

/-- Every part of a string is a leaf with a width. -/
theorem leaf_of_mem_stringParts {token : Token} (h : token.Quoted) {part : Node}
    (hmem : part ∈ stringParts token) :
    (part.kind = .token ∨ part.kind = .escapeSequence) ∧ part.children = [] ∧
      part.start.byte < part.stop.byte := by
  obtain ⟨inner, htext⟩ := h.1
  have hstop := Location.byte_step ((token.start.step '"').advance inner) '"'
  rw [← stop_of_quoted htext h] at hstop
  have hquote := Location.byte_step token.start '"'
  have hsize : 0 < '"'.utf8Size := by decide
  rw [stringParts_eq htext, List.cons_append, List.mem_cons, List.mem_append,
    List.mem_singleton] at hmem
  rcases hmem with rfl | hmem | rfl
  · refine ⟨.inl rfl, rfl, ?_⟩
    show token.start.byte < (token.start.step '"').byte
    omega
  · obtain ⟨start, stop, hlt, rfl⟩ := escapes_eq_leaf hmem
    exact ⟨.inr rfl, rfl, hlt⟩
  · refine ⟨.inl rfl, rfl, ?_⟩
    show ((token.start.step '"').advance inner).byte < token.stop.byte
    omega

theorem formed_of_mem_stringParts {textEnd : Location} {token : Token} (h : token.Quoted)
    {part : Node} (hmem : part ∈ stringParts token) :
    part.children = [] ∧ part.Formed textEnd := by
  obtain ⟨hkind, hchildren, hwidth⟩ := leaf_of_mem_stringParts h hmem
  have hkind : part.kind ≠ .error := by
    rcases hkind with hkind | hkind <;> rw [hkind] <;> nofun
  refine ⟨hchildren, Nat.le_of_lt hwidth, ?_, ?_, ?_, fun herror => absurd herror hkind,
    fun herror => absurd herror hkind⟩
  · rw [Ordered, hchildren]
    exact .nil
  · simp [hchildren]
  · simp [hchildren]

theorem start_stringNode {token : Token} (h : token.Quoted) :
    (ofChildren .stringLiteral (stringParts token)).start = token.start := by
  obtain ⟨inner, htext⟩ := h.1
  rw [stringParts_eq htext]
  rfl

theorem stop_stringNode {token : Token} (h : token.Quoted) :
    (ofChildren .stringLiteral (stringParts token)).stop = token.stop := by
  obtain ⟨inner, htext⟩ := h.1
  rw [stringParts_eq htext, stop_ofChildren _ List.getLast?_concat]
  rfl

end Node

/-! ## What is covered -/

namespace Covers

variable {textEnd : Location} {lo hi : Nat} {nodes : List Node} {tokens : List Token}

/-- Nodes that cover tokens stand in a row. -/
theorem row (h : Covers textEnd lo hi nodes tokens) : Node.Row lo hi nodes := by
  induction h with
  | nil hle => exact hle
  | trivia _ hlo hwidth _ ih => exact ⟨hlo, hwidth, ih⟩
  | leaf _ _ _ hlo hwidth _ ih => exact ⟨hlo, hwidth, ih⟩
  | string _ hquoted hlo _ ih =>
    obtain ⟨hstart, hwidth, hstop⟩ :=
      (Node.row_stringParts hquoted).bounds (by simp [Production.stringParts])
    exact ⟨Nat.le_trans hlo hstart, hwidth, ih.weaken hstop⟩
  | composite _ hne _ _ ih₁ ih₂ =>
    obtain ⟨hlo, hwidth, hhi⟩ := ih₁.bounds hne
    exact ⟨hlo, hwidth, ih₂.weaken hhi⟩
  | missing hlo _ ih => exact ⟨hlo, Nat.le_refl _, ih⟩

/-- Every node in a cover is formed. -/
theorem formed (h : Covers textEnd lo hi nodes tokens) :
    ∀ node ∈ nodes.flatMap Node.descendants, node.Formed textEnd := by
  have hcons : ∀ (node : Node) (nodes : List Node), node.Formed textEnd →
      (∀ below ∈ node.children.flatMap Node.descendants, below.Formed textEnd) →
      (∀ below ∈ nodes.flatMap Node.descendants, below.Formed textEnd) →
      ∀ below ∈ (node :: nodes).flatMap Node.descendants, below.Formed textEnd := by
    intro node nodes hnode hchildren hnodes below hmem
    rw [List.flatMap_cons, Node.descendants_eq, List.mem_append, List.mem_cons] at hmem
    rcases hmem with (rfl | hmem) | hmem
    · exact hnode
    · exact hchildren below hmem
    · exact hnodes below hmem
  induction h with
  | nil => simp
  | trivia _ _ hwidth _ ih =>
    refine hcons _ _ (Node.formed_leaf ?_ hwidth) (fun _ hmem => by cases hmem) ih
    split <;> simp
  | leaf hkind _ _ _ hwidth _ ih =>
    refine hcons _ _ (Node.formed_leaf ?_ hwidth) (fun _ hmem => by cases hmem) ih
    rintro rfl
    cases hkind
  | string _ hquoted _ _ ih =>
    refine hcons _ _ ((Node.row_stringParts hquoted).formed ?_ (by simp)) ?_ ih
    · simp [Production.stringParts]
    · intro below hmem
      obtain ⟨part, hpart, hbelow⟩ := List.mem_flatMap.mp hmem
      obtain ⟨hleaf, hformed⟩ := Node.formed_of_mem_stringParts hquoted hpart
      rw [Node.descendants_eq, hleaf] at hbelow
      obtain rfl := List.mem_singleton.mp hbelow
      exact hformed
  | composite hkind hne hinner _ ih₁ ih₂ =>
    refine hcons _ _ (hinner.row.formed hne fun herror child hmem => ?_) ih₁ ih₂
    rcases hkind with hkind | ⟨-, hleaves⟩
    · rw [herror] at hkind
      cases hkind
    · exact (hleaves child hmem).1
  | missing _ _ ih => exact hcons _ _ (Node.formed_gap _) (fun _ hmem => by cases hmem) ih

theorem units_leaf {kind : NodeKind} {start stop : Location} (h : kind ≠ .error) :
    (Node.leaf kind start stop).units = [.leaf kind start stop] := by
  show (if Node.isGap _ then [] else [_]) = _
  rw [if_neg]
  · rfl
  · simp [Node.isGap, Node.kind, Node.label, h]

theorem units_ofChildren {kind : NodeKind} {children : List Node} (hkind : kind ≠ .stringLiteral)
    (hne : children ≠ []) :
    (Node.ofChildren kind children).units = Node.unitsAll children := by
  cases children with
  | nil => exact absurd rfl hne
  | cons first rest =>
    show (if kind = .stringLiteral then _ else _) = _
    rw [if_neg hkind]

/-- The leaves of a cover account for its tokens. -/
theorem account (h : Covers textEnd lo hi nodes tokens) :
    Node.Account (Node.unitsAll nodes) tokens := by
  induction h with
  | nil => exact .nil
  | @trivia lo hi token nodes tokens _ _ _ _ ih =>
    have hunits : (ParseState.triviaNode token).units = [ParseState.triviaNode token] :=
      units_leaf (by split <;> simp)
    rw [Node.unitsAll, hunits]
    exact .append (.single (.leaf rfl rfl rfl)) ih
  | leaf hkind hplain hlast _ _ _ ih =>
    rw [Node.unitsAll, units_leaf (by rintro rfl; cases hkind)]
    exact .append (.single (.joined rfl hplain hlast rfl rfl)) ih
  | @string lo hi token nodes tokens hkind hquoted _ _ ih =>
    obtain ⟨inner, htext⟩ := hquoted.1
    have hstart := Node.start_stringNode hquoted
    have hstop := Node.stop_stringNode hquoted
    have hparts := Node.stringParts_eq htext
    have hunits : (Node.ofChildren .stringLiteral (Production.stringParts token)).units
        = [.ofChildren .stringLiteral (Production.stringParts token)] := rfl
    rw [Node.unitsAll, hunits]
    exact .append (.single (.string hkind htext rfl hstart hstop hparts)) ih
  | composite hkind hne _ _ ih₁ ih₂ =>
    rw [Node.unitsAll, units_ofChildren ?_ hne]
    · exact .append ih₁ ih₂
    · rcases hkind with hkind | ⟨rfl, -⟩
      · rintro rfl
        cases hkind
      · simp
  | @missing lo hi nodes tokens _ _ ih =>
    have hunits : (Node.leaf .error textEnd textEnd).units = [] := by
      simp [Node.leaf, Node.build, Node.units, Node.isGap, Node.kind, Node.label, Node.children,
        Node.start, Node.stop]
    rw [Node.unitsAll, hunits]
    exact ih

end Covers

/-! ## Trees -/

/-- A tree that covers a text: it is well formed, and its leaves are the tokens of the text.

Every tree has `linked`: a focus does not store its parent and its place but derives them from the
way down, so that they cannot disagree with the lists of children (`Focus.linked`). It stands here
because a well formed tree is one that can be walked up as well as down. -/
structure Node.CoversText (chars : List Char) (root : Node) : Prop where
  start : root.start = .origin
  stop : root.stop = Location.origin.advance chars ∧ root.stop.byte = byteLength chars
  ordered : root.Ordered
  formed : ∀ focus ∈ (Focus.ofRoot root).descendants, focus ≠ .ofRoot root →
    focus.node.Formed (Location.origin.advance chars)
  linked : (Focus.ofRoot root).Linked
  account : Node.Account (Node.unitsAll root.children) (tokenize chars)

/-- The children of the root do not overlap. -/
theorem Parse.root_ordered (chars : List Char) : (parse chars none).root.Ordered := by
  obtain ⟨hi, -, hcovers⟩ := root_covers chars
  exact hcovers.row.pairwise

/-- The tree of every text covers the text. -/
theorem parse_coversText (chars : List Char) : (parse chars none).root.CoversText chars := by
  obtain ⟨hi, -, hcovers⟩ := Parse.root_covers chars
  have hstop : (parse chars none).root.stop = Location.origin.advance chars := by
    rw [Parse.parse_none_root]
    exact Parse.final_textEnd chars
  refine ⟨?_, ⟨hstop, ?_⟩, hcovers.row.pairwise, fun focus hmem hne => ?_, Focus.linked _,
    hcovers.account⟩
  · rw [Parse.parse_none_root]
    rfl
  · rw [hstop, Location.byte_advance]
    exact Nat.zero_add _
  · rw [Focus.descendants_eq] at hmem
    rcases List.mem_cons.mp hmem with rfl | hmem
    · exact absurd rfl hne
    · obtain ⟨child, hchild, hfocus⟩ := List.mem_flatMap.mp hmem
      refine hcovers.formed _ (List.mem_flatMap.mpr ⟨child.node, ?_, ?_⟩)
      · exact Focus.children_node (.ofRoot _) ▸ List.mem_map_of_mem hchild
      · rw [← Focus.descendants_node]
        exact List.mem_map_of_mem hfocus

end Azsl
