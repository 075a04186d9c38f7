/-
Azsl.Proofs.Parse.Depth — how deep lists of expressions hang below one another.

Lists of expressions are wrapped around operands, so on the way down a tree they show how deep
the productions called one another. Every level of nesting adds at most two of them. What adds
to them without being a level are the operands of assignments and conditionals, again two at
most (`parse_hanging`): these group to the right, and nothing bounds how many of them stand in
one another (`hanging_assignmentChain`).
-/
import Azsl.Proofs.Expression.Chain
import Azsl.Proofs.Grammar.Building
import Azsl.Proofs.Parse.Fresh

namespace Azsl

/-! ## The way down a tree -/

namespace Node

/-- The nodes on the way down a tree by positions among siblings, each with its position. The
way ends where there is no child at a position. -/
def along (node : Node) : List Nat → List (Nat × Node)
  | [] => []
  | position :: rest =>
    match node.children[position]? with
    | some child => (position, child) :: child.along rest
    | none => []

/-- A list of expressions that is not the first child of its parent. -/
def hangs (position : Nat) (node : Node) : Bool :=
  position != 0 && node.kind == .expressionExt

/-- An assignment or a conditional: an expression with an assignment operator, or with two lists
of expressions. -/
def isRightGrouped (node : Node) : Bool :=
  node.kind == .expression &&
    (node.children.any (·.kind == .assignmentOperator) ||
      2 ≤ node.children.countP (·.kind == .expressionExt))

/-- Number of lists of expressions on a way down, first children apart. -/
def hanging (node : Node) (path : List Nat) : Nat :=
  (node.along path).countP fun (position, below) => below.hangs position

/-- Number of assignments and conditionals on a way down, the first node included. -/
def rightGrouped (node : Node) (path : List Nat) : Nat :=
  (node :: (node.along path).map (·.2)).countP isRightGrouped

variable {node child : Node} {position : Nat} {path : List Nat}

theorem along_some (h : node.children[position]? = some child) :
    node.along (position :: path) = (position, child) :: child.along path := by
  rw [along, h]

theorem along_none (h : node.children[position]? = none) : node.along (position :: path) = [] := by
  rw [along, h]

theorem hanging_some (h : node.children[position]? = some child) :
    node.hanging (position :: path) = child.hanging path + (child.hangs position).toNat := by
  rw [hanging, along_some h, List.countP_cons, hanging]
  cases hhangs : child.hangs position <;> simp [hhangs]

theorem rightGrouped_some (h : node.children[position]? = some child) :
    node.rightGrouped (position :: path)
      = child.rightGrouped path + node.isRightGrouped.toNat := by
  rw [rightGrouped, along_some h, List.map_cons, List.countP_cons, rightGrouped]
  cases node.isRightGrouped <;> simp

theorem hanging_of_ended (h : node.along path = []) : node.hanging path = 0 := by
  rw [hanging, h, List.countP_nil]

/-! ## Bounds -/

/-- On every way down from a node at most so many lists hang, and two more for each assignment
and conditional. -/
def Deep (bound : Nat) (node : Node) : Prop :=
  ∀ path, node.hanging path ≤ bound + 2 * node.rightGrouped path

/-- The same, where the node itself counts as hanging if it is a list. -/
def Shallow (bound : Nat) (node : Node) : Prop :=
  ∀ path, node.hanging path + (node.kind == .expressionExt).toNat
    ≤ bound + 2 * node.rightGrouped path

variable {bound : Nat}

theorem Shallow.deep (h : node.Shallow bound) : node.Deep bound :=
  fun path => Nat.le_trans (Nat.le_add_right _ _) (h path)

theorem Shallow.mono (h : node.Shallow bound) {other : Nat} (hle : bound ≤ other) :
    node.Shallow other :=
  fun path => Nat.le_trans (h path) (by omega)

theorem Deep.shallow (h : node.Deep bound) (hkind : node.kind ≠ .expressionExt) :
    node.Shallow bound := by
  intro path
  rw [beq_eq_false_iff_ne.mpr hkind]
  exact h path

theorem Deep.shallow_succ (h : node.Deep bound) : node.Shallow (bound + 1) := by
  intro path
  have hpath := h path
  cases node.kind == .expressionExt <;> simp only [Bool.toNat_true, Bool.toNat_false] <;> omega

/-- What hangs below a node hangs below one of its children, or is one of them. -/
theorem deep_of_children (h : ∀ (position : Nat) (child : Node),
    node.children[position]? = some child →
      ∀ path, child.hanging path + (child.hangs position).toNat
        ≤ bound + 2 * (child.rightGrouped path + node.isRightGrouped.toNat)) : node.Deep bound := by
  intro path
  cases path with
  | nil => simp [hanging, along]
  | cons position path =>
    cases hchild : node.children[position]? with
    | none => simp [hanging_of_ended (along_none hchild)]
    | some child =>
      rw [hanging_some hchild, rightGrouped_some hchild]
      exact h position child hchild path

/-- The first child may be a list that is as deep as the bound. -/
theorem deep_of_row (hhead : ∀ child ∈ node.children.head?, child.Deep bound)
    (htail : ∀ child ∈ node.children.tail, child.Shallow bound) : node.Deep bound := by
  refine deep_of_children fun position child hget path => ?_
  cases position with
  | zero =>
    have hfirst := hhead child (by rw [List.head?_eq_getElem?, hget]; rfl) path
    have hhangs : child.hangs 0 = false := rfl
    rw [hhangs]
    simp only [Bool.toNat_false]
    omega
  | succ position =>
    have hbelow := htail child (List.mem_of_getElem? (by rwa [List.getElem?_tail])) path
    have hhangs : child.hangs (position + 1) = (child.kind == .expressionExt) := rfl
    rw [hhangs]
    omega

theorem deep_of_shallow (h : ∀ child ∈ node.children, child.Shallow bound) : node.Deep bound :=
  deep_of_row (fun child hchild => (h child (List.mem_of_mem_head? hchild)).deep)
    fun child hchild => h child (List.mem_of_mem_tail hchild)

/-- Assignments and conditionals may have operands that are deeper. -/
theorem deep_of_rightGrouped (hgrouped : node.isRightGrouped = true)
    (h : ∀ child ∈ node.children, child.Shallow (bound + 2)) : node.Deep bound := by
  refine deep_of_children fun position child hchild path => ?_
  have hbelow := h child (List.mem_of_getElem? hchild) path
  have hle : (child.hangs position).toNat ≤ (child.kind == .expressionExt).toNat := by
    unfold hangs
    cases position != 0 <;> simp
  rw [hgrouped, Bool.toNat_true]
  omega

theorem Shallow.ofChildren {kind : NodeKind} {children : List Node} (hkind : kind ≠ .expressionExt)
    (h : ∀ child ∈ children, child.Shallow bound) :
    (Node.ofChildren kind children).Shallow bound := by
  have hdeep : (Node.ofChildren kind children).Deep bound := deep_of_shallow h
  exact hdeep.shallow hkind

theorem shallow_thorough (bound : Nat) : Thorough (Shallow bound) where
  leaf start stop hkind := by
    refine Deep.shallow (fun path => ?_) (NodeKind.ne_of_isOperand hkind).1
    cases path <;> simp [hanging, along, leaf, build, children]
  ofChildren hkind h := Shallow.ofChildren (NodeKind.ne_of_isOperand hkind).1 h
  operand hkind h := Shallow.ofChildren hkind h

theorem shallow_compositional (bound : Nat) : Compositional (Shallow bound) :=
  (shallow_thorough bound).toCompositional

end Node

/-! ## Lists of expressions -/

open Node (Shallow)

namespace Production

variable {grammar : Grammar} {depth bound : Nat}

/-- Only the first node of a scope may be as deep as the bound, if it is a list. -/
def Row (bound : Nat) (state : ParseState) : Prop :=
  (∀ node ∈ state.built.reverse.head?, node.Deep bound) ∧
    ∀ node ∈ state.built.reverse.tail, node.Shallow bound

theorem Row.of_all {state : ParseState} (h : state.All (Shallow bound)) : Row bound state :=
  ⟨fun node hmem => (h node (List.mem_reverse.mp (List.mem_of_mem_head? hmem))).deep,
    fun node hmem => h node (List.mem_reverse.mp (List.mem_of_mem_tail hmem))⟩

theorem Row.append {state last : ParseState} (h : Row bound state) {added : List Node}
    (hbuilt : last.built = added ++ state.built) (hadded : ∀ node ∈ added, node.Shallow bound) :
    Row bound last := by
  obtain ⟨hhead, htail⟩ := h
  rw [Row, hbuilt, List.reverse_append]
  cases hrow : state.built.reverse with
  | nil =>
    refine ⟨fun node hmem => (hadded node ?_).deep, fun node hmem => hadded node ?_⟩
    · exact List.mem_reverse.mp (List.mem_of_mem_head? hmem)
    · exact List.mem_reverse.mp (List.mem_of_mem_tail hmem)
  | cons first others =>
    rw [hrow] at hhead htail
    refine ⟨hhead, fun node hmem => ?_⟩
    rcases List.mem_append.mp hmem with hmem | hmem
    · exact htail node hmem
    · exact hadded node (List.mem_reverse.mp hmem)

theorem Row.flush {state : ParseState} (h : Row bound state) : Row bound state.flush := by
  obtain ⟨trivia, hbuilt⟩ := state.built_flush
  refine h.append hbuilt fun node hmem => ?_
  obtain ⟨token, -, rfl⟩ := List.mem_map.mp hmem
  exact (Node.shallow_compositional bound).incidental.trivia token

theorem Row.push {state : ParseState} (h : Row bound state) {node : Node}
    (hnode : node.Shallow bound) : Row bound { state with built := node :: state.built } := by
  have hadded : ∀ added ∈ [node], added.Shallow bound := by simpa using hnode
  exact h.append rfl hadded

theorem Row.bump {state : ParseState} (h : Row bound state) : Row bound state.bump := by
  cases hrest : state.rest with
  | nil =>
    rw [ParseState.bump_nil hrest]
    exact h.flush
  | cons first others =>
    rw [ParseState.bump_cons hrest]
    have hflush := h.flush
    rw [ParseState.flush_cons hrest] at hflush
    exact hflush.push ((Node.shallow_compositional bound).leaf _ _ (by decide))

/-- A list around a single expression. -/
theorem shallow_single {minPower : Nat}
    (h : Builds (Shallow bound) (grammar (.expression minPower) depth)) {state last : ParseState}
    (hrun : node .expressionExt (grammar (.expression minPower) depth) state = .ok last) :
    ∃ (inner : ParseState) (list : Node), last = { inner with built := list :: state.flush.built } ∧
      list.Shallow (bound + 1) := by
  obtain ⟨inner, hinner, rfl⟩ := node_eq_ok.mp hrun
  refine ⟨inner, _, rfl, Node.Deep.shallow_succ (Node.deep_of_shallow fun child hchild => ?_)⟩
  exact h _ _ hinner .opened child (List.mem_reverse.mp hchild)

/-- A list is at most two deeper than its expressions: a further expression puts a list around
what stands before the comma. -/
theorem builds_expressionExt (h : Builds (Shallow bound) (grammar (.expression 0) depth)) :
    Builds (Shallow (bound + 2)) (expressionExt grammar depth) := by
  have hsingle : ∀ state last,
      node .expressionExt (grammar (.expression 0) depth) state = .ok last →
        Row (bound + 1) state → Row (bound + 1) last := by
    intro state last hrun hstate
    obtain ⟨inner, list, rfl, hlist⟩ := shallow_single h hrun
    exact hstate.flush.push hlist
  have hturn : ∀ state last, enclose .expressionExt
      (bump >=> node .expressionExt (grammar (.expression 0) depth)) state = .ok last →
      Row (bound + 1) state → Row (bound + 1) last := by
    intro state last hrun hstate
    obtain ⟨inner, hinner, rfl⟩ := enclose_eq_ok.mp hrun
    obtain ⟨comma, hcomma, hlist⟩ := seq_eq_ok.mp hinner
    obtain rfl := Except.ok.inj hcomma
    obtain ⟨hhead, htail⟩ := hsingle _ _ hlist hstate.bump
    refine ⟨fun list hmem => ?_, fun list hmem => by cases hmem⟩
    obtain rfl := Option.some.inj hmem
    exact Node.deep_of_row hhead htail
  intro state last hrun hstate
  obtain ⟨inner, hinner, rfl⟩ := inScope_eq_ok.mp hrun
  obtain ⟨first, hfirst, hrest⟩ := seq_eq_ok.mp hinner
  obtain ⟨hhead, htail⟩ := whileAhead_keeps hturn _ _ hrest (hsingle _ _ hfirst (.of_all .opened))
  intro node hmem
  rcases List.mem_append.mp hmem with hmem | hmem
  · cases hrow : inner.built.reverse with
    | nil => simp [List.reverse_eq_nil_iff.mp hrow] at hmem
    | cons first others =>
      rw [hrow] at hhead htail
      rw [← List.mem_reverse, hrow] at hmem
      rcases List.mem_cons.mp hmem with rfl | hmem
      · exact (hhead node rfl).shallow_succ
      · exact (htail node hmem).mono (by omega)
  · exact hstate.flush (Node.shallow_compositional _).incidental node hmem

/-- There is a list of expressions behind one. -/
theorem exists_list {state last : ParseState}
    (hrun : expressionExt grammar depth state = .ok last) :
    ∃ list ∈ last.built, list.kind = .expressionExt := by
  obtain ⟨inner, hinner, rfl⟩ := inScope_eq_ok.mp hrun
  obtain ⟨first, hfirst, hrest⟩ := seq_eq_ok.mp hinner
  obtain ⟨expression, -, rfl⟩ := node_eq_ok.mp hfirst
  have hturn : ∀ state last, enclose .expressionExt
      (bump >=> node .expressionExt (grammar (.expression 0) depth)) state = .ok last →
      (∃ list ∈ state.built, list.kind = .expressionExt) →
      ∃ list ∈ last.built, list.kind = .expressionExt := by
    intro state last hrun _
    obtain ⟨inner, -, rfl⟩ := enclose_eq_ok.mp hrun
    exact ⟨_, List.mem_singleton.mpr rfl, rfl⟩
  obtain ⟨list, hmem, hkind⟩ := whileAhead_keeps hturn _ _ hrest ⟨_, List.mem_cons_self, rfl⟩
  exact ⟨list, List.mem_append_left _ hmem, hkind⟩

/-! ## Operators -/

/-- An operator other than a binary one makes an expression that groups to the right. -/
theorem isRightGrouped_of_infixTail {more : Nat} {operator : Infix} {state last : ParseState}
    (hoperator : ∀ power, operator ≠ .binary power)
    (hrun : infixTail grammar depth more operator state = .ok last) :
    (Node.ofChildren .expression last.built.reverse).isRightGrouped = true := by
  have hchildren : (Node.ofChildren .expression last.built.reverse).isRightGrouped
      = (last.built.any (·.kind == .assignmentOperator) ||
          2 ≤ last.built.countP (·.kind == .expressionExt)) := by
    rw [← List.any_reverse, ← List.countP_reverse]
    rfl
  rw [hchildren, Bool.or_eq_true, List.any_eq_true, decide_eq_true_eq]
  cases operator with
  | assignment =>
    obtain ⟨between, hbetween, hlast⟩ := seq_eq_ok.mp hrun
    obtain ⟨inner, -, rfl⟩ := node_eq_ok.mp hbetween
    obtain ⟨value, -, rfl⟩ := node_eq_ok.mp hlast
    refine .inl ⟨_, List.mem_cons_of_mem _ (ParseState.mem_flush_of_mem List.mem_cons_self), rfl⟩
  | conditional =>
    obtain ⟨behind, -, hrest⟩ := seq_eq_ok.mp hrun
    obtain ⟨chosen, hchosen, hrest⟩ := seq_eq_ok.mp hrest
    obtain ⟨colon, hcolon, hlast⟩ := seq_eq_ok.mp hrest
    obtain ⟨other, -, rfl⟩ := node_eq_ok.mp hlast
    obtain ⟨-, rfl⟩ := expect_eq_ok.mp hcolon
    obtain ⟨list, hmem, hkind⟩ := exists_list hchosen
    have hbefore : 0 < chosen.bump.flush.built.countP (·.kind == .expressionExt) :=
      List.countP_pos_iff.mpr ⟨list,
        ParseState.mem_flush_of_mem (ParseState.mem_bump_of_mem hmem), by simp [hkind]⟩
    refine .inr ?_
    rw [ParseState.close, List.countP_cons_of_pos rfl]
    exact Nat.succ_le_succ hbefore
  | binary power => exact absurd rfl (hoperator power)

/-- What follows an operand is at most two deeper. -/
theorem builds_infixTail (more : Nat) (operator : Infix)
    (hcalls : ∀ deeper, bound ≤ deeper → ∀ rule, Builds (Shallow deeper) (grammar rule depth)) :
    Builds (Shallow (bound + 2)) (infixTail grammar depth more operator) := by
  have hcomp := Node.shallow_compositional (bound + 2)
  have hsingle : ∀ minPower, Builds (Shallow (bound + 2))
      (node .expressionExt (grammar (.expression minPower) depth)) := by
    intro minPower state last hrun hstate
    obtain ⟨inner, list, rfl, hlist⟩ := shallow_single (hcalls (bound + 1) (by omega) _) hrun
    intro node hmem
    rcases List.mem_cons.mp hmem with rfl | hmem
    · exact hlist
    · exact hstate.flush hcomp.incidental node hmem
  cases operator with
  | assignment =>
    exact (Builds.node hcomp (by decide) (.take hcomp more (by decide))).seq (hsingle _)
  | conditional =>
    exact (Builds.take hcomp 0 (by decide)).seq <|
      (builds_expressionExt (hcalls bound (Nat.le_refl _) _)).seq <|
      (Builds.expect hcomp.incidental ":").seq (hsingle _)
  | binary power =>
    exact (Builds.node hcomp (by decide) (.take hcomp more (by decide))).seq
      (hcalls _ (by omega) _)

/-- An expression is as deep as its operands. -/
theorem builds_expression {minPower : Nat}
    (hcalls : ∀ deeper, bound ≤ deeper → ∀ rule, Builds (Shallow deeper) (grammar rule depth)) :
    Builds (Shallow bound) (expression grammar minPower depth) := by
  have hcomp := Node.shallow_compositional bound
  have hturn : Builds (Shallow bound) (enclose .expression (infixNext grammar depth)) := by
    intro state last hrun hstate
    obtain ⟨inner, hinner, rfl⟩ := enclose_eq_ok.mp hrun
    have hnext : infixOf grammar depth (Infix.ahead? state.rest) state = .ok inner := hinner
    cases hahead : Infix.ahead? state.rest with
    | none =>
      rw [hahead] at hnext
      cases hnext
    | some next =>
      obtain ⟨operator, more⟩ := next
      rw [hahead] at hnext
      have htail : infixTail grammar depth more operator state = .ok inner := hnext
      by_cases hbinary : ∃ power, operator = .binary power
      · obtain ⟨power, rfl⟩ := hbinary
        have hbuilds : Builds (Shallow bound) (infixTail grammar depth more (.binary power)) :=
          (Builds.node hcomp (by decide) (.take hcomp more (by decide))).seq
            (hcalls bound (Nat.le_refl _) _)
        intro node hmem
        obtain rfl := List.mem_singleton.mp hmem
        exact (Node.shallow_thorough bound).operand (by decide) fun child hchild =>
          hbuilds _ _ htail hstate child (List.mem_reverse.mp hchild)
      · have hgrouped := isRightGrouped_of_infixTail (fun power heq => hbinary ⟨power, heq⟩) htail
        have hinner := builds_infixTail more operator hcalls _ _ htail fun node hmem =>
          (hstate node hmem).mono (by omega)
        intro node hmem
        obtain rfl := List.mem_singleton.mp hmem
        exact Node.Deep.shallow (Node.deep_of_rightGrouped hgrouped fun child hchild =>
          hinner child (List.mem_reverse.mp hchild))
          (by simp [Node.ofChildren, Node.build, Node.kind, Node.label])
  exact .inScope hcomp.incidental ((hcalls bound (Nat.le_refl _) .unary).seq (.whileAhead hturn))

end Production

/-! ## The whole grammar -/

namespace Grammar

/-- What may hang at a depth: two lists for every level that is left. -/
def room (depth : Nat) : Nat :=
  2 * (maxDepth - depth)

/-- What a nonterminal builds at a depth is as deep as there is room. -/
theorem upTo_shallow (fuel depth bound : Nat) (hbound : room depth ≤ bound) (rule : Rule) :
    Production.Builds (Shallow bound) (upTo fuel rule depth) := by
  induction fuel generalizing depth bound rule with
  | zero =>
    intro state last hrun
    cases hrun
  | succ fuel ih =>
    have hclosed : ∀ depth, room depth + 2 ≤ bound →
        Closed (upTo fuel) depth (Production.Builds (Shallow bound)) := by
      intro depth hroom
      refine Production.Builds.closed (Node.shallow_compositional bound)
        (Production.Builds.qualifiedName (Node.shallow_thorough bound)) ?_
        fun rule => ih depth bound (by omega) rule
      obtain ⟨extra, rfl⟩ := Nat.exists_eq_add_of_le hroom
      have hlist := Production.builds_expressionExt (ih depth (room depth + extra) (by omega)
        (.expression 0))
      rwa [Nat.add_right_comm] at hlist
    by_cases hexpression : ∃ minPower, rule = .expression minPower
    · obtain ⟨minPower, rfl⟩ := hexpression
      exact Production.builds_expression fun deeper hle rule => ih depth deeper (by omega) rule
    · refine Production.Builds.step (Node.shallow_thorough bound)
        (fun minPower heq => hexpression ⟨minPower, heq⟩) fun hdepth => hclosed (depth + 1) ?_
      unfold room at hbound ⊢
      omega

end Grammar

/-- On every way down the tree of a text, the lists of expressions that are no first children
are at most two for every level of nesting and two for every assignment and conditional. -/
theorem parse_hanging (chars : List Char) (path : List Nat) :
    (parse chars none).root.hanging path
      ≤ 2 * (Grammar.maxDepth + 1) + 2 * (parse chars none).root.rightGrouped path := by
  have hclosed : ∀ fuel, Closed (.upTo fuel) 0
      (Production.Builds (Shallow (2 * (Grammar.maxDepth + 1)))) := fun fuel =>
    Production.Builds.closed (Node.shallow_compositional _)
      (Production.Builds.qualifiedName (Node.shallow_thorough _))
      (Production.builds_expressionExt (Grammar.upTo_shallow fuel 0 _ (Nat.le_refl _) _))
      fun rule => Grammar.upTo_shallow fuel 0 _ (by decide) rule
  exact Node.deep_of_shallow (Parse.root_children (Node.shallow_compositional _) hclosed chars) path

/-! ## Chains without a bound -/

/-- A variable whose initial value is a chain of so many assignments. -/
def assignmentChain (count : Nat) : List Char :=
  "float v = ".toList ++ (List.replicate count "a = ".toList).flatten ++ "a;".toList

/-- In a chain as many lists hang as there are assignments. -/
theorem Node.hanging_chained {count : Nat} {node : Node} (h : Chained count node) :
    node.hanging (List.replicate count [2, 0]).flatten = count := by
  induction count generalizing node with
  | zero => rfl
  | succ count ih =>
    obtain ⟨target, operator, value, rfl, hvalue⟩ := h
    have hlist : (Node.ofChildren .expression
        [target, operator, .ofChildren .expressionExt [value]]).children[2]?
        = some (.ofChildren .expressionExt [value]) := rfl
    have honly : (Node.ofChildren .expressionExt [value]).children[0]? = some value := rfl
    rw [List.replicate_succ, List.flatten_cons, List.cons_append, List.cons_append,
      List.nil_append, hanging_some hlist, hanging_some honly, ih hvalue]
    rfl

/-- Above the initial value of a variable no list hangs. -/
theorem Node.hanging_floatStatement {type name equal semicolon : Token} {initial : Node}
    (start stop : Location) (path : List Nat) :
    (Node.build .sourceFile start stop
        [floatStatement type name equal semicolon initial]).hanging ([0, 0, 1, 0, 1, 1, 0] ++ path)
      = initial.hanging path := by
  have hinitial : (Node.ofChildren .standardVariableInitializer [initial]).children[0]?
      = some initial := rfl
  have hvalue : (Node.ofChildren .standardVariableInitializer [initial]).hanging (0 :: path)
      = initial.hanging path := hanging_some hinitial
  rw [← hvalue]
  rfl

theorem declaration_chain (count : Nat) :
    (Expr.chain ⟨"a", by decide, by decide⟩ count).declaration = assignmentChain count := by
  have hfront : ∀ words, words ≠ [] →
      spaced ("float" :: "v" :: "=" :: words) = "float v = ".toList ++ spaced words := by
    intro words hne
    rw [spaced_cons _ (List.cons_ne_nil _ _), spaced_cons _ (List.cons_ne_nil _ _),
      spaced_cons _ hne]
    rfl
  have hturn : "a = ".toList = "a".toList ++ " = ".toList := by decide
  have hend : "a;".toList = "a".toList ++ [';'] := by decide
  rw [Expr.declaration, hfront _ (Expr.words_chain_ne_nil _ count), Expr.spaced_chain]
  unfold assignmentChain
  rw [hturn, hend]
  simp only [List.append_assoc]

/-- The assignments of a chain stand in one another, however many there are. -/
theorem hanging_assignmentChain (count : Nat) :
    (parse (assignmentChain count) none).root.hanging
      ([0, 0, 1, 0, 1, 1, 0] ++ (List.replicate count [2, 0]).flatten) = count := by
  obtain ⟨type, name, equal, semicolon, node, hchained, hroot⟩ :=
    Expr.parse_chain ⟨"a", by decide, by decide⟩ count
  rw [declaration_chain] at hroot
  rw [hroot, Node.hanging_floatStatement, Node.hanging_chained hchained]

/-- More assignments stand in one another than four times the depth to which operands nest. -/
theorem assignments_unbounded :
    4 * Grammar.maxDepth < (parse (assignmentChain 257) none).root.hanging
      ([0, 0, 1, 0, 1, 1, 0] ++ (List.replicate 257 [2, 0]).flatten) := by
  rw [hanging_assignmentChain]
  decide

end Azsl
