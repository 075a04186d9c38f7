/-
Azsl.Proofs.Parse.Shape — where names and lists of arguments stand.

A qualified name stands in an expression only as the whole of it or behind the dot of a member
access, so nothing but extras can follow it there. A list of arguments always follows what it
applies to, and only an expression that is made of these two holds one. Inside of operands the
nodes in a scope tell that: an operand is one node at a time, which every postfix wraps.
-/
import Azsl.Proofs.Parse.Fresh
import Azsl.Proofs.Syntax.Links

namespace Azsl

/-- The kinds of nodes in expressions, names and lists of arguments apart. -/
def NodeKind.isPart : NodeKind → Bool
  | .identifier | .idExpression | .argumentList => false
  | _ => true

namespace Node

/-- A node is of a kind that stands in expressions wherever it likes. -/
def Part (node : Node) : Prop :=
  node.kind.isPart = true

/-- How names and arguments stand in a node. -/
structure Shaped (node : Node) : Prop where
  /-- Names in expressions are qualified names. -/
  named : node.kind = .expression → ∀ child ∈ node.children, child.kind ≠ .identifier
  /-- Qualified names are not nested. -/
  flat : node.kind = .idExpression → ∀ child ∈ node.children, child.kind ≠ .idExpression
  /-- Nothing but extras follows a qualified name. -/
  last : node.kind = .expression →
    ∀ child ∈ (node.children.filter (!·.kind.isExtra)).dropLast, child.kind ≠ .idExpression
  /-- Arguments are in an expression, behind what they are applied to. -/
  applied : ∀ child ∈ node.children, child.kind = .argumentList → node.kind = .expression ∧
    ∃ callee rest, node.children = callee :: rest ∧
      (rest.filter (!·.kind.isExtra)).map (·.kind) = [.argumentList]

/-- A node and all below it are shaped. -/
def ShapedThroughout (node : Node) : Prop :=
  ∀ below ∈ node.descendants, below.Shaped

/-- What productions other than lists of arguments build. -/
structure Regular (node : Node) : Prop where
  kind : node.kind ≠ .argumentList
  shaped : node.ShapedThroughout

variable {node : Node}

theorem ShapedThroughout.of_children (hself : node.Shaped)
    (h : ∀ child ∈ node.children, child.ShapedThroughout) : node.ShapedThroughout := by
  intro below hmem
  rw [descendants_eq] at hmem
  rcases List.mem_cons.mp hmem with rfl | hmem
  · exact hself
  · obtain ⟨child, hchild, hbelow⟩ := List.mem_flatMap.mp hmem
    exact h child hchild below hbelow

/-- A node that is neither an expression nor a name is shaped if there are no arguments in it. -/
theorem shaped_of_kind (hkind : node.kind ≠ .expression ∧ node.kind ≠ .idExpression)
    (h : ∀ child ∈ node.children, child.kind ≠ .argumentList) : node.Shaped where
  named hexpression := absurd hexpression hkind.1
  flat hname := absurd hname hkind.2
  last hexpression := absurd hexpression hkind.1
  applied child hchild harguments := absurd harguments (h child hchild)

theorem shapedThroughout_of_kind (hkind : node.kind ≠ .expression ∧ node.kind ≠ .idExpression)
    (h : ∀ child ∈ node.children, child.Regular) : node.ShapedThroughout :=
  .of_children (shaped_of_kind hkind fun child hchild => (h child hchild).kind)
    fun child hchild => (h child hchild).shaped

theorem regular_of_isOperand (hkind : node.kind.isOperand = false)
    (h : ∀ child ∈ node.children, child.Regular) : node.Regular := by
  obtain ⟨-, hexpression, hname, harguments⟩ := NodeKind.ne_of_isOperand hkind
  exact ⟨harguments, shapedThroughout_of_kind ⟨hexpression, hname⟩ h⟩

theorem regular_list {children : List Node} (h : ∀ child ∈ children, child.Regular) :
    (ofChildren .expressionExt children).Regular :=
  ⟨nofun, shapedThroughout_of_kind ⟨nofun, nofun⟩ h⟩

theorem regular_compositional : Compositional Regular where
  leaf start stop hkind := by
    refine regular_of_isOperand hkind fun child hchild => ?_
    cases hchild
  ofChildren hkind h := regular_of_isOperand hkind h

/-! ## Expressions -/

theorem Part.ne {node : Node} (h : node.Part) :
    node.kind ≠ .identifier ∧ node.kind ≠ .idExpression ∧ node.kind ≠ .argumentList := by
  unfold Part at h
  refine ⟨?_, ?_, ?_⟩ <;> intro hkind <;> rw [hkind] at h <;> cases h

/-- What an expression may end with: a qualified name, or the arguments of all that is before. -/
def MayEnd (front : List Node) (last : Node) : Prop :=
  last.kind = .idExpression ∨
    last.kind = .argumentList ∧ ∃ callee extras, front = callee :: extras ∧
      ∀ extra ∈ extras, extra.kind.isExtra = true

theorem shaped_expression {front : List Node} {last : Option Node}
    (hfront : ∀ node ∈ front, node.Part) (hlast : ∀ node ∈ last, MayEnd front node) :
    (ofChildren .expression (front ++ last.toList)).Shaped := by
  have hchildren : (ofChildren .expression (front ++ last.toList)).children
      = front ++ last.toList := rfl
  refine ⟨fun _ child hchild => ?_, nofun, fun _ child hchild => ?_,
    fun child hchild harguments => ?_⟩
  · rw [hchildren, List.mem_append, Option.mem_toList] at hchild
    rcases hchild with hchild | hchild
    · exact (hfront child hchild).ne.1
    · rcases hlast child hchild with hname | ⟨harguments, -⟩
      · rw [hname]
        nofun
      · rw [harguments]
        nofun
  · rw [hchildren] at hchild
    refine (hfront child ?_).ne.2.1
    cases last with
    | none =>
      rw [Option.toList_none, List.append_nil] at hchild
      exact List.mem_of_mem_filter (List.dropLast_subset _ hchild)
    | some last =>
      have hkept : (!last.kind.isExtra) = true := by
        rcases hlast last rfl with hname | ⟨harguments, -⟩
        · rw [hname]
          rfl
        · rw [harguments]
          rfl
      rw [Option.toList_some, List.filter_append, List.filter_singleton, hkept, cond_true,
        List.dropLast_concat] at hchild
      exact List.mem_of_mem_filter hchild
  · rw [hchildren, List.mem_append, Option.mem_toList] at hchild
    rcases hchild with hchild | hchild
    · exact absurd harguments (hfront child hchild).ne.2.2
    · obtain rfl := Option.mem_def.mp hchild
      rcases hlast child rfl with hname | ⟨-, callee, extras, rfl, hextras⟩
      · rw [hname] at harguments
        cases harguments
      · refine ⟨rfl, callee, extras ++ [child], rfl, ?_⟩
        have hnone : extras.filter (!·.kind.isExtra) = [] :=
          List.filter_eq_nil_iff.mpr fun extra hextra => by simp [hextras extra hextra]
        have hkept : (!child.kind.isExtra) = true := by
          rw [harguments]
          rfl
        rw [List.filter_append, hnone, List.filter_singleton, hkept, cond_true, List.nil_append,
          List.map_singleton, harguments]

/-- What stands in an expression wherever it likes, with all below it. -/
def Loose (node : Node) : Prop :=
  node.Regular ∧ node.Part

theorem regular_expression {front : List Node} {last : Option Node}
    (hfront : ∀ node ∈ front, node.Loose)
    (hlast : ∀ node ∈ last, MayEnd front node ∧ node.ShapedThroughout) :
    (ofChildren .expression (front ++ last.toList)).Regular := by
  refine ⟨nofun, .of_children ?_ fun child hchild => ?_⟩
  · exact shaped_expression (fun node hmem => (hfront node hmem).2)
      fun node hmem => (hlast node hmem).1
  · have hmem : child ∈ front ++ last.toList := hchild
    rw [List.mem_append, Option.mem_toList] at hmem
    exact hmem.elim (fun hmem => (hfront child hmem).1.shaped) fun hmem => (hlast child hmem).2

/-- An expression of nodes that stand where they like. -/
theorem regular_loose {children : List Node} (h : ∀ child ∈ children, child.Loose) :
    (ofChildren .expression children).Regular := by
  have hregular : (ofChildren .expression (children ++ (none : Option Node).toList)).Regular :=
    regular_expression h nofun
  rwa [Option.toList_none, List.append_nil] at hregular

theorem part_incidental : Incidental Part where
  trivia token := by
    show NodeKind.isPart (if token.kind = .comment then .comment else .preprocDirective) = true
    split <;> rfl
  token _ _ := rfl

theorem loose_incidental : Incidental Loose where
  trivia token := ⟨regular_compositional.incidental.trivia token, part_incidental.trivia token⟩
  token start stop :=
    ⟨regular_compositional.incidental.token start stop, part_incidental.token start stop⟩

end Node

open Node (Regular Part Loose)

namespace ParseState

/-- What is built makes up an expression. -/
def Expressed (state : ParseState) : Prop :=
  (Node.ofChildren .expression state.built.reverse).Regular

/-- A single node is built that stands in expressions wherever it likes. -/
def Single (state : ParseState) : Prop :=
  ∃ operand : Node, state.built = [operand] ∧ operand.Loose

/-- Nothing is built, and there are no extras in front of the input. -/
def Bare (state : ParseState) : Prop :=
  state.flush.built = []

variable {state : ParseState}

theorem Expressed.of_all (h : state.All Loose) : state.Expressed :=
  Node.regular_loose fun node hmem => h node (List.mem_reverse.mp hmem)

theorem Expressed.of_last {before : List Node} {last : Node} (hbuilt : state.built = last :: before)
    (hbefore : ∀ node ∈ before, node.Loose) (hends : Node.MayEnd before.reverse last)
    (hlast : last.ShapedThroughout) : state.Expressed := by
  have hregular : (Node.ofChildren .expression
      (before.reverse ++ (some last).toList)).Regular :=
    Node.regular_expression (fun node hmem => hbefore node (List.mem_reverse.mp hmem))
      fun node hmem => by
        obtain rfl := Option.some.inj hmem
        exact ⟨hends, hlast⟩
  rwa [Expressed, hbuilt, List.reverse_cons]

theorem Single.all (h : state.Single) : state.All Loose := by
  obtain ⟨operand, hbuilt, hoperand⟩ := h
  intro node hmem
  rw [hbuilt] at hmem
  exact List.mem_singleton.mp hmem ▸ hoperand

theorem Bare.all (h : state.Bare) : state.All Loose := by
  intro node hmem
  have hflush := mem_flush_of_mem hmem
  rw [h] at hflush
  cases hflush

theorem bare_opened (state : ParseState) : state.flush.opened.Bare := by
  unfold Bare
  cases hrest : state.rest with
  | nil => simp [flush, opened, hrest]
  | cons first others => simp [flush, opened, hrest]

end ParseState

open ParseState (Expressed Single Bare)

namespace Production

variable {grammar : Grammar} {depth : Nat}

/-! ## What is built in a scope -/

theorem builds_loose {body : Production} (h : body.Builds Regular) (hpart : body.Builds Part) :
    body.Builds Loose :=
  h.and hpart

/-- Any node of a kind that stands in expressions wherever it likes does so. -/
theorem node_part {kind : NodeKind} (hkind : kind.isPart = true) (body : Production) :
    (node kind body).Builds Part :=
  Builds.nodeOf (R := fun _ => True) Node.part_incidental (fun _ => hkind)
    fun _ _ _ _ _ _ => trivial

theorem enclose_part {kind : NodeKind} (hkind : kind.isPart = true) (body : Production) :
    (enclose kind body).Builds Part := by
  intro state last hrun _ node hmem
  obtain ⟨inner, -, rfl⟩ := enclose_eq_ok.mp hrun
  obtain rfl := List.mem_singleton.mp hmem
  exact hkind

theorem expressionExt_part : (expressionExt grammar depth).Builds Part :=
  .inScope Node.part_incidental <| (node_part rfl _).seq <| Leads.whileAhead (enclose_part rfl _)

theorem nested_part (kind : NodeKind) (hkind : kind.isPart = true) (body : Nat → Production) :
    (Grammar.nested depth fun depth => node kind (body depth)).Builds Part :=
  Leads.nested fun _ => node_part hkind _

/-- An operand is no name and no list of arguments. -/
theorem unary_part : (unary grammar depth).Builds Part := by
  refine Leads.nested fun _ => Leads.ifAhead (node_part rfl _) ?_
  have hprimary : (primary grammar (depth + 1)).Builds Part :=
    Leads.ifAhead (node_part rfl _) <| Leads.ifAt (node_part rfl _) <|
    Leads.ifAhead (node_part rfl _) <| Leads.ifAhead (node_part rfl _) Leads.fail
  have hoperand : Builds Part
      (inScope (primary grammar (depth + 1) >=> postfixes grammar (depth + 1))) :=
    .inScope Node.part_incidental (hprimary.seq (Leads.whileAhead (enclose_part rfl _)))
  exact Leads.ifAt (Leads.orElse (node_part rfl _) hoperand) hoperand

/-- Nonterminals build no names and no lists of arguments of their own. -/
theorem step_part (h : (grammar .unary depth).Builds Part) (rule : Rule) :
    (Grammar.step grammar rule depth).Builds Part := by
  cases rule with
  | type => rw [Grammar.step, Production.type]; exact nested_part .type rfl _
  | initializer =>
    rw [Grammar.step, Production.initializer]
    exact nested_part .standardVariableInitializer rfl _
  | structured =>
    rw [Grammar.step, Production.structured]
    exact nested_part .anyStructuredTypeDefinition rfl _
  | block => rw [Grammar.step, Production.block]; exact nested_part .block rfl _
  | embedded => rw [Grammar.step, Production.embedded]; exact nested_part .embeddedStatement rfl _
  | expression minPower =>
    exact .inScope Node.part_incidental (h.seq (Leads.whileAhead (enclose_part rfl _)))
  | unary => exact unary_part

theorem list_regular {body : Production} (hbody : body.Builds Regular) :
    (node .expressionExt body).Builds Regular :=
  Builds.nodeOf Node.regular_compositional.incidental Node.regular_list hbody

theorem expressionExt_regular (h : (grammar (.expression 0) depth).Builds Regular) :
    (expressionExt grammar depth).Builds Regular := by
  have hmore : Builds Regular (bump >=> node .expressionExt (grammar (.expression 0) depth)) :=
    (Builds.bump Node.regular_compositional.incidental).seq (list_regular h)
  exact .inScope Node.regular_compositional.incidental <| (list_regular h).seq <|
    Leads.whileAhead (Builds.encloseOf Node.regular_list hmore)

/-! ## Names -/

/-- Parts of a qualified name are no qualified names. -/
theorem parts_compositional :
    Compositional fun node => node.Regular ∧ node.kind ≠ .idExpression where
  leaf start stop hkind := ⟨Node.regular_compositional.leaf start stop hkind,
    (NodeKind.ne_of_isOperand hkind).2.2.1⟩
  ofChildren hkind h := ⟨Node.regular_compositional.ofChildren hkind fun child hchild =>
    (h child hchild).1, (NodeKind.ne_of_isOperand hkind).2.2.1⟩

/-- A qualified name is a node by itself. -/
theorem exists_name {count : Nat} {state last : ParseState}
    (hrun : qualifiedName count state = .ok last) :
    ∃ name : Node, name.kind = .idExpression ∧ name.Regular ∧
      last.built = name :: state.flush.built := by
  cases count with
  | zero => cases hrun
  | succ count =>
    have hbody := ((Builds.optional parts_compositional.incidental "::").seq
      ((Builds.identifier parts_compositional).seq (Builds.furtherNames parts_compositional count)))
    obtain ⟨children, hchildren, hbuilt⟩ := hbody.exists_children hrun
    have hshaped : (Node.ofChildren .idExpression children).Shaped :=
      ⟨nofun, fun _ child hchild => (hchildren child hchild).2, nofun,
        fun child hchild harguments => absurd harguments (hchildren child hchild).1.kind⟩
    exact ⟨.ofChildren .idExpression children, rfl,
      ⟨nofun, .of_children hshaped fun child hchild => (hchildren child hchild).1.shaped⟩, hbuilt⟩

theorem qualifiedName_regular (count : Nat) : (qualifiedName count).Builds Regular := by
  intro state last hrun hstate node hmem
  obtain ⟨name, -, hname, hbuilt⟩ := exists_name hrun
  rw [hbuilt] at hmem
  rcases List.mem_cons.mp hmem with rfl | hmem
  · exact hname
  · exact hstate.flush Node.regular_compositional.incidental node hmem

/-- A qualified name behind nodes that stand where they like makes up an expression. -/
theorem idExpression_expressed : idExpression.Leads (ParseState.All Loose) Expressed := by
  intro state last hrun hstate
  obtain ⟨name, hkind, hname, hbuilt⟩ := exists_name hrun
  exact .of_last hbuilt (hstate.flush Node.loose_incidental) (.inl hkind) hname.shaped

/-! ## Operands -/

/-- A call makes up an expression. -/
theorem argumentList_expressed (h : Closed grammar depth (Builds Regular)) :
    (argumentList grammar depth).Leads Single Expressed := by
  intro state last hrun hstate
  have hall := hstate.all.flush Node.loose_incidental
  have hbody : Builds Regular
      (expect "(" >=> unlessAt ")" (commaSeparated (grammar (.expression 0) depth)) >=>
        expect ")") :=
    h.seq (h.expect "(") (h.seq (h.unlessAt (h.commaSeparated (h.call _))) (h.expect ")"))
  obtain ⟨children, hchildren, hbuilt⟩ := hbody.exists_children hrun
  refine .of_last hbuilt hall (.inr ⟨rfl, ?_⟩)
    (Node.shapedThroughout_of_kind ⟨nofun, nofun⟩ hchildren)
  obtain ⟨callee, hcallee, -⟩ := hstate
  obtain ⟨trivia, htrivia⟩ := state.built_flush
  refine ⟨callee, (trivia.map ParseState.triviaNode).reverse, ?_, fun extra hextra => ?_⟩
  · rw [htrivia, hcallee, List.reverse_append, List.reverse_singleton, List.singleton_append]
  · obtain ⟨token, -, rfl⟩ := List.mem_map.mp (List.mem_reverse.mp hextra)
    show NodeKind.isExtra (if token.kind = .comment then .comment else .preprocDirective) = true
    split <;> rfl

/-- The node of an expression is the only one in a scope that was empty. -/
theorem node_single {body : Production} (h : body.Leads Bare Expressed) :
    (node .expression body).Leads Bare Single := by
  intro state last hrun hstate
  obtain ⟨inner, hinner, rfl⟩ := node_eq_ok.mp hrun
  refine ⟨_, congrArg (_ :: ·) hstate, h _ _ hinner (ParseState.bare_opened state), rfl⟩

theorem enclose_single {P : ParseState → Prop} {body : Production} (h : body.Leads P Expressed) :
    (enclose .expression body).Leads P Single := by
  intro state last hrun hstate
  obtain ⟨inner, hinner, rfl⟩ := enclose_eq_ok.mp hrun
  exact ⟨_, rfl, h _ _ hinner hstate, rfl⟩

variable (h : Closed grammar depth (Builds Regular))

include h

theorem primary_single : (primary grammar depth).Leads Bare Single := by
  have hexpressed : ∀ {body : Production}, body.Builds Loose → body.Leads Bare Expressed :=
    fun hbody state last hrun hstate => .of_all (hbody state last hrun hstate.all)
  have hliteral : literal.Builds Loose := builds_loose h.literal (node_part rfl _)
  have hparens : Builds Loose (bump >=> expressionExt grammar depth >=> expect ")") :=
    (Builds.bump Node.loose_incidental).seq <|
    (builds_loose h.expressionExt expressionExt_part).seq (.expect Node.loose_incidental ")")
  have htype : numericType.Leads Bare Single := by
    intro state last hrun hstate
    obtain ⟨inner, -, rfl⟩ := node_eq_ok.mp hrun
    have hall := builds_loose h.numericType (node_part rfl _) state _ hrun hstate.all
    exact ⟨_, congrArg (_ :: ·) hstate, hall _ List.mem_cons_self⟩
  exact Leads.ifAhead (node_single (hexpressed hliteral)) <|
    Leads.ifAt (node_single (hexpressed hparens)) <|
    Leads.ifAhead (node_single (htype.seq (argumentList_expressed h))) <|
    Leads.ifAhead (node_single fun state last hrun hstate =>
      idExpression_expressed state last hrun hstate.all) Leads.fail

variable (hparts : ∀ rule, (grammar rule depth).Builds Part)

include hparts

theorem call_loose (rule : Rule) : (grammar rule depth).Builds Loose :=
  builds_loose (h.call rule) (hparts rule)

theorem postfixes_single : (postfixes grammar depth).Leads Single Single := by
  have hexpressed : ∀ {body : Production}, body.Builds Loose → body.Leads Single Expressed :=
    fun hbody state last hrun hstate => .of_all (hbody state last hrun hstate.all)
  have hmember : Leads Single Expressed (bump >=> idExpression) := fun state last hrun hstate =>
    Leads.seq (Builds.bump Node.loose_incidental) idExpression_expressed state last hrun hstate.all
  have hindex : Builds Loose (bump >=> grammar (.expression 0) depth >=> expect "]") :=
    (Builds.bump Node.loose_incidental).seq <|
    (call_loose h hparts _).seq (.expect Node.loose_incidental "]")
  have hstep : (tokenNode .postfixUnaryOperator).Builds Loose :=
    builds_loose (h.tokenNode (by decide)) (node_part rfl _)
  exact Leads.whileAhead <| enclose_single <| Leads.ifAt hmember <|
    Leads.ifAt (hexpressed hindex) <| Leads.ifAt (argumentList_expressed h) (hexpressed hstep)

theorem operand_regular :
    (inScope (primary grammar depth >=> postfixes grammar depth)).Builds Regular := by
  intro state last hrun hstate
  obtain ⟨inner, hinner, rfl⟩ := inScope_eq_ok.mp hrun
  have hsingle := (primary_single h).seq (postfixes_single h hparts) _ _ hinner
    (ParseState.bare_opened state)
  intro node hmem
  rcases List.mem_append.mp hmem with hmem | hmem
  · exact (hsingle.all node hmem).1
  · exact hstate.flush Node.regular_compositional.incidental node hmem

theorem cast_regular : (cast grammar depth).Builds Regular := by
  refine Builds.nodeOf Node.regular_compositional.incidental Node.regular_loose ?_
  have hrank : (arrayRank grammar depth).Builds Loose := builds_loose h.arrayRank (node_part rfl _)
  exact (Builds.bump Node.loose_incidental).seq <| Leads.choose fun _ =>
    (call_loose h hparts .type).seq <| Leads.seq (Leads.whileAhead hrank) <|
    (Builds.expect Node.loose_incidental ")").seq <| Leads.seq (Leads.guard _) <|
    call_loose h hparts .unary

/-! ## Operators -/

theorem infixTail_loose (more : Nat) (operator : Infix) :
    (infixTail grammar depth more operator).Builds Loose := by
  have hlist : ∀ minPower,
      (node .expressionExt (grammar (.expression minPower) depth)).Builds Loose := fun minPower =>
    builds_loose (list_regular (h.call _)) (node_part rfl _)
  cases operator with
  | assignment =>
    have hoperator : (node .assignmentOperator (bumpJoined more .token)).Builds Loose :=
      builds_loose (h.node (by decide) (h.take more .token (by decide))) (node_part rfl _)
    exact hoperator.seq (hlist _)
  | conditional =>
    exact (Builds.bump Node.loose_incidental).seq <|
      (builds_loose h.expressionExt expressionExt_part).seq <|
      (Builds.expect Node.loose_incidental ":").seq (hlist _)
  | binary power =>
    have hoperator : (node .binaryOperator (bumpJoined more .token)).Builds Loose :=
      builds_loose (h.node (by decide) (h.take more .token (by decide))) (node_part rfl _)
    exact hoperator.seq (call_loose h hparts _)

theorem expression_regular (minPower : Nat) :
    (expression grammar minPower depth).Builds Regular := by
  have hnext : (infixNext grammar depth).Builds Loose := by
    refine Leads.choose fun input => ?_
    cases Infix.ahead? input with
    | none => exact Leads.fail
    | some next => exact infixTail_loose h hparts next.2 next.1
  have hturn : (enclose .expression (infixNext grammar depth)).Builds Loose :=
    Builds.encloseOf (fun hchildren => ⟨Node.regular_loose hchildren, rfl⟩) hnext
  exact .inScopeOf Node.regular_compositional.incidental (fun node hnode => hnode.1)
    ((call_loose h hparts .unary).seq (Leads.whileAhead hturn))

omit h hparts in
theorem unary_regular (h : depth < Grammar.maxDepth → Closed grammar (depth + 1) (Builds Regular))
    (hparts : ∀ rule, (grammar rule (depth + 1)).Builds Part) :
    (unary grammar depth).Builds Regular := by
  refine Leads.nested fun hdepth => ?_
  have hclosed := h hdepth
  have hsign : (tokenNode .prefixUnaryOperator).Builds Loose :=
    builds_loose (hclosed.tokenNode (by decide)) (node_part rfl _)
  have hoperand := operand_regular hclosed hparts
  exact Leads.ifAhead
    (Builds.nodeOf Node.regular_compositional.incidental Node.regular_loose
      (hsign.seq (call_loose hclosed hparts .unary))) <|
    Leads.ifAt (Leads.orElse (cast_regular hclosed hparts) hoperand) hoperand

end Production

/-! ## The whole grammar -/

namespace Grammar

theorem upTo_part (fuel depth : Nat) (rule : Rule) : (upTo fuel rule depth).Builds Part := by
  induction fuel generalizing depth rule with
  | zero =>
    intro state last hrun
    cases hrun
  | succ fuel ih => exact Production.step_part (ih depth .unary) rule

/-- Everything nonterminals build is shaped. -/
theorem upTo_closed (fuel depth : Nat) : Closed (upTo fuel) depth (Production.Builds Regular) := by
  have hclosed : ∀ {fuel : Nat}, (∀ depth rule, (upTo fuel rule depth).Builds Regular) →
      ∀ depth, Closed (upTo fuel) depth (Production.Builds Regular) := fun hcalls depth =>
    Production.Builds.closed Node.regular_compositional Production.qualifiedName_regular
      (Production.expressionExt_regular (hcalls depth _)) (hcalls depth)
  suffices hcalls : ∀ depth rule, (upTo fuel rule depth).Builds Regular from hclosed hcalls depth
  induction fuel with
  | zero =>
    intro depth rule state last hrun
    cases hrun
  | succ fuel ih =>
    intro depth rule
    by_cases hexpression : ∃ minPower, rule = .expression minPower
    · obtain ⟨minPower, rfl⟩ := hexpression
      exact Production.expression_regular (hclosed ih depth) (upTo_part fuel depth) minPower
    by_cases hunary : rule = .unary
    · subst hunary
      exact Production.unary_regular (fun _ => hclosed ih _) (upTo_part fuel _)
    · exact Closed.step ⟨hunary, fun minPower heq => hexpression ⟨minPower, heq⟩⟩
        Production.Leads.fail fun _ => hclosed ih _

end Grammar

/-- Every node of the tree of a text is shaped. -/
theorem Parse.shaped_of_mem {chars : List Char} {node : Node}
    (h : node ∈ (parse chars none).root.descendants) : node.Shaped := by
  have hroot : (parse chars none).root.ShapedThroughout := by
    refine Node.shapedThroughout_of_kind ?_
      (root_children Node.regular_compositional (fun fuel => Grammar.upTo_closed fuel 0) chars)
    rw [root_kind]
    exact ⟨nofun, nofun⟩
  exact hroot node h

end Azsl
