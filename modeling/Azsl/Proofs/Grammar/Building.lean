/-
Azsl.Proofs.Grammar.Building — what productions build.

A property of nodes that every leaf has, and every node whose children have it, is kept by all
productions that make no nodes of expressions. Those are left to the property: names, lists of
expressions and operands. A property that goes by the children of all nodes but lists is kept by
names and operands, too.
-/
import Azsl.Proofs.Grammar.Closed
import Azsl.Proofs.Grammar.State

namespace Azsl

/-! ## States -/

/-- A property that leaves have and that nodes have if their children have it, the nodes of
expressions apart. -/
structure Compositional (Q : Node → Prop) : Prop where
  leaf : ∀ {kind : NodeKind} (start stop : Location), kind.isOperand = false →
    Q (.leaf kind start stop)
  ofChildren : ∀ {kind : NodeKind} {children : List Node}, kind.isOperand = false →
    (∀ child ∈ children, Q child) → Q (.ofChildren kind children)

/-- A property that extras and unnamed leaves have. -/
structure Incidental (Q : Node → Prop) : Prop where
  trivia : ∀ token, Q (ParseState.triviaNode token)
  token : ∀ start stop, Q (.leaf .token start stop)

theorem Compositional.incidental {Q : Node → Prop} (hQ : Compositional Q) : Incidental Q where
  trivia token := by
    refine hQ.leaf _ _ ?_
    split <;> decide
  token start stop := hQ.leaf start stop (by decide)

namespace ParseState

/-- All nodes of the innermost open node have a property. -/
def All (Q : Node → Prop) (state : ParseState) : Prop :=
  ∀ node ∈ state.built, Q node

/-- Only trivia is added in front of a token. -/
theorem built_flush (state : ParseState) :
    ∃ trivia : List Token, state.flush.built = trivia.map triviaNode ++ state.built := by
  cases hrest : state.rest with
  | nil => exact ⟨state.trailing.reverse, by rw [flush_nil hrest, List.map_reverse]⟩
  | cons first others => exact ⟨first.leading.reverse, by rw [flush_cons hrest, List.map_reverse]⟩

variable {Q : Node → Prop} {state : ParseState}

theorem mem_flush_of_mem {node : Node} (h : node ∈ state.built) : node ∈ state.flush.built := by
  obtain ⟨trivia, htrivia⟩ := state.built_flush
  rw [htrivia]
  exact List.mem_append_right _ h

theorem mem_bump_of_mem {node : Node} (h : node ∈ state.built) : node ∈ state.bump.built := by
  cases hrest : state.rest with
  | nil =>
    rw [bump_nil hrest]
    exact mem_flush_of_mem h
  | cons first others =>
    rw [bump_cons hrest]
    exact List.mem_cons_of_mem _ (List.mem_append_right _ h)

theorem All.opened : state.opened.All Q := by
  intro node hmem
  cases hmem

theorem All.flush (h : state.All Q) (hQ : Incidental Q) : state.flush.All Q := by
  obtain ⟨trivia, htrivia⟩ := state.built_flush
  intro node hmem
  rw [htrivia] at hmem
  rcases List.mem_append.mp hmem with hmem | hmem
  · obtain ⟨token, -, rfl⟩ := List.mem_map.mp hmem
    exact hQ.trivia token
  · exact h node hmem

theorem All.bumpJoined (h : state.All Q) (hQ : Incidental Q) (count : Nat) {kind : NodeKind}
    (hleaf : ∀ start stop, Q (.leaf kind start stop)) : (state.bumpJoined count kind).All Q := by
  have hflush := h.flush hQ
  unfold ParseState.bumpJoined
  simp only
  split
  · intro node hmem
    rcases List.mem_cons.mp hmem with rfl | hmem
    · exact hleaf _ _
    · exact hflush node hmem
  · exact hflush

theorem All.bump (h : state.All Q) (hQ : Incidental Q) : state.bump.All Q :=
  h.bumpJoined hQ 0 hQ.token

theorem All.bumpMany (h : state.All Q) (hQ : Incidental Q) (count : Nat) :
    (state.bumpMany count).All Q := by
  induction count generalizing state with
  | zero => exact h
  | succ count ih => exact ih (h.bump hQ)

theorem All.missing (h : state.All Q) (hQ : Compositional Q) : state.missing.All Q := by
  intro node hmem
  rcases List.mem_cons.mp hmem with rfl | hmem
  · exact hQ.leaf _ _ (by decide)
  · exact h.flush hQ.incidental node hmem

theorem All.enclosed (h : state.All Q) (hQ : Compositional Q) {kind : NodeKind}
    (hkind : kind.isOperand = false) : (state.enclosed kind).All Q := by
  intro node hmem
  obtain rfl := List.mem_singleton.mp hmem
  exact hQ.ofChildren hkind fun child hchild => h child (List.mem_reverse.mp hchild)

/-- Closing a node adds that node. -/
theorem All.close {outer inner : ParseState} (houter : outer.All Q) {kind : NodeKind}
    (hnode : Q (.ofChildren kind inner.built.reverse)) : (outer.close kind inner).All Q := by
  intro node hmem
  rcases List.mem_cons.mp hmem with rfl | hmem
  · exact hnode
  · exact houter node hmem

theorem All.closed {outer inner : ParseState} (houter : outer.All Q) (hinner : inner.All Q)
    (hQ : Compositional Q) {kind : NodeKind} (hkind : kind.isOperand = false) :
    (outer.close kind inner).All Q :=
  houter.close <| hQ.ofChildren hkind fun child hchild => hinner child (List.mem_reverse.mp hchild)

theorem All.recovered (h : state.All Q) (hQ : Compositional Q) (mode : Recovery) :
    (mode.run state).All Q :=
  (h.flush hQ.incidental).closed (All.opened.bumpMany hQ.incidental _) hQ (by decide)

end ParseState

/-! ## Productions -/

namespace Production

/-- A production leads from states with a property to states with another. -/
def Leads (P P' : ParseState → Prop) (body : Production) : Prop :=
  ∀ state last : ParseState, body state = .ok last → P state → P' last

namespace Leads

variable {P P' P'' : ParseState → Prop} {first second : Production}

theorem skip : Leads P P .ok := by
  intro state last hrun hstate
  obtain rfl := Except.ok.inj hrun
  exact hstate

theorem fail : Production.fail.Leads P P' := by
  intro state last hrun
  cases hrun

theorem guard (look : List Lexeme → Bool) : (Production.guard look).Leads P P := by
  intro state last hrun hstate
  obtain ⟨-, rfl⟩ := guard_eq_ok.mp hrun
  exact hstate

theorem seq (hfirst : first.Leads P P') (hsecond : second.Leads P' P'') :
    Leads P P'' (first >=> second) := by
  intro state last hrun hstate
  obtain ⟨between, hbetween, hlast⟩ := seq_eq_ok.mp hrun
  exact hsecond _ _ hlast (hfirst _ _ hbetween hstate)

theorem choose {select : List Lexeme → Production} (h : ∀ input, (select input).Leads P P') :
    (Production.choose select).Leads P P' :=
  fun state last hrun hstate => h state.rest state last hrun hstate

theorem orElse (hfirst : first.Leads P P') (hsecond : second.Leads P P') :
    (Production.orElse first second).Leads P P' := by
  intro state last hrun hstate
  rcases orElse_eq_ok.mp hrun with hfirst' | ⟨-, hsecond'⟩
  · exact hfirst _ _ hfirst' hstate
  · exact hsecond _ _ hsecond' hstate

theorem ifAhead {look : List Lexeme → Bool} (hyes : first.Leads P P') (hno : second.Leads P P') :
    (Production.ifAhead look first second).Leads P P' := by
  intro state last hrun hstate
  rcases ifAhead_eq_ok.mp hrun with ⟨-, hyes'⟩ | ⟨-, hno'⟩
  · exact hyes _ _ hyes' hstate
  · exact hno _ _ hno' hstate

theorem ifAt {text : String} (hyes : first.Leads P P') (hno : second.Leads P P') :
    (Production.ifAt text first second).Leads P P' :=
  ifAhead hyes hno

theorem whileAhead {look : List Lexeme → Bool} {body : Production} (h : body.Leads P P) :
    (Production.whileAhead look body).Leads P P :=
  whileAhead_keeps h

/-- Below the check of its depth. -/
theorem nested {body : Nat → Production} {depth : Nat}
    (h : depth < Grammar.maxDepth → (body (depth + 1)).Leads P P') :
    (Grammar.nested depth body).Leads P P' := by
  unfold Grammar.nested
  split
  · exact fail
  · exact h (by omega)

end Leads

/-- A production adds only nodes with a property. -/
def Builds (Q : Node → Prop) (body : Production) : Prop :=
  body.Leads (ParseState.All Q) (ParseState.All Q)

namespace Builds

variable {Q R : Node → Prop}

theorem seq {first second : Production} (hfirst : first.Builds Q) (hsecond : second.Builds Q) :
    Builds Q (first >=> second) :=
  Leads.seq hfirst hsecond

/-- What adds only nodes with either of two properties adds only nodes with both. -/
theorem and {body : Production} (hQ : body.Builds Q) (hR : body.Builds R) :
    body.Builds fun node => Q node ∧ R node := fun state last hrun hstate node hmem =>
  ⟨hQ state last hrun (fun node hmem => (hstate node hmem).1) node hmem,
    hR state last hrun (fun node hmem => (hstate node hmem).2) node hmem⟩

theorem take (hQ : Compositional Q) (count : Nat) {kind : NodeKind}
    (hkind : kind.isOperand = false) : (bumpJoined count kind).Builds Q := by
  intro state last hrun hstate
  obtain rfl := Except.ok.inj hrun
  exact hstate.bumpJoined hQ.incidental count fun start stop => hQ.leaf start stop hkind

theorem bump (hQ : Incidental Q) : Production.bump.Builds Q := by
  intro state last hrun hstate
  obtain rfl := Except.ok.inj hrun
  exact hstate.bump hQ

theorem expect (hQ : Incidental Q) (text : String) : (Production.expect text).Builds Q := by
  intro state last hrun hstate
  obtain ⟨-, rfl⟩ := expect_eq_ok.mp hrun
  exact hstate.bump hQ

theorem string (hQ : Compositional Q) : stringLiteral.Builds Q := by
  intro state last hrun hstate
  obtain ⟨first, others, -, -, rfl⟩ := stringLiteral_eq_ok.mp hrun
  refine (hstate.flush hQ.incidental).close (hQ.ofChildren (by decide) fun part hpart => ?_)
  rw [List.reverse_reverse] at hpart
  obtain ⟨_, _, _, rfl | rfl, rfl⟩ := Node.stringParts_eq_leaf hpart
  · exact hQ.leaf _ _ (by decide)
  · exact hQ.leaf _ _ (by decide)

theorem optional (hQ : Incidental Q) (text : String) : (Production.optional text).Builds Q := by
  have hoptional : Production.optional text = Production.ifAt text Production.bump .ok := rfl
  rw [hoptional]
  exact Leads.ifAt (bump hQ) Leads.skip

theorem identifier (hQ : Compositional Q) : Production.identifier.Builds Q :=
  Leads.seq (Leads.guard _) (take hQ 0 (by decide))

/-- The one node that is added, and what is known of its children. -/
theorem exists_children {kind : NodeKind} {body : Production} (hbody : body.Builds R)
    {state last : ParseState} (hrun : Production.node kind body state = .ok last) :
    ∃ children, (∀ child ∈ children, R child) ∧
      last.built = .ofChildren kind children :: state.flush.built := by
  obtain ⟨inner, hinner, rfl⟩ := node_eq_ok.mp hrun
  exact ⟨_, fun child hchild => hbody _ _ hinner .opened child (List.mem_reverse.mp hchild), rfl⟩

/-- A node is built if it has a property whenever its children have another. -/
theorem nodeOf (hQ : Incidental Q) {kind : NodeKind} {body : Production}
    (hkind : ∀ {children}, (∀ child ∈ children, R child) → Q (.ofChildren kind children))
    (hbody : body.Builds R) : (Production.node kind body).Builds Q := by
  intro state last hrun hstate
  obtain ⟨children, hchildren, hbuilt⟩ := exists_children hbody hrun
  intro node hmem
  rw [hbuilt] at hmem
  rcases List.mem_cons.mp hmem with rfl | hmem
  · exact hkind hchildren
  · exact hstate.flush hQ node hmem

theorem node (hQ : Compositional Q) {kind : NodeKind} {body : Production}
    (hkind : kind.isOperand = false) (hbody : body.Builds Q) :
    (Production.node kind body).Builds Q :=
  nodeOf hQ.incidental (hQ.ofChildren hkind) hbody

/-- Nodes of a scope are added to those before it. -/
theorem inScopeOf (hQ : Incidental Q) {body : Production} (hR : ∀ node, R node → Q node)
    (hbody : body.Builds R) : (Production.inScope body).Builds Q := by
  intro state last hrun hstate
  obtain ⟨inner, hinner, rfl⟩ := inScope_eq_ok.mp hrun
  intro node hmem
  rcases List.mem_append.mp hmem with hmem | hmem
  · exact hR node (hbody _ _ hinner .opened node hmem)
  · exact hstate.flush hQ node hmem

theorem inScope (hQ : Incidental Q) {body : Production} (hbody : body.Builds Q) :
    (Production.inScope body).Builds Q :=
  inScopeOf hQ (fun _ h => h) hbody

theorem encloseOf {kind : NodeKind} {body : Production}
    (hkind : ∀ {children}, (∀ child ∈ children, Q child) → Q (.ofChildren kind children))
    (hbody : body.Builds Q) : (Production.enclose kind body).Builds Q := by
  intro state last hrun hstate
  obtain ⟨inner, hinner, rfl⟩ := enclose_eq_ok.mp hrun
  intro node hmem
  obtain rfl := List.mem_singleton.mp hmem
  exact hkind fun child hchild => hbody _ _ hinner hstate child (List.mem_reverse.mp hchild)

theorem nodeThen (hQ : Compositional Q) {head : Production} {select : List Lexeme → Closing}
    (hhead : head.Builds Q) (hselect : ∀ input, (select input).tail.Builds Q ∧
      (select input).kind.isOperand = false ∧ (select input).around.isOperand = false) :
    (Production.nodeThen head select).Builds Q := by
  intro state last hrun hstate
  unfold Production.nodeThen at hrun
  split at hrun
  · cases hrun
  · rename_i inner hinner
    obtain ⟨htail, hkind, haround⟩ := hselect inner.rest
    simp only at hrun
    split at hrun
    · cases hrun
    · rename_i behind hbehind
      obtain rfl := Except.ok.inj hrun
      have hflush := hstate.flush hQ.incidental
      have hinside := htail _ _ hbehind (hhead _ _ hinner .opened)
      exact (hflush.closed hinside hQ hkind).enclosed hQ haround

theorem braced (hQ : Compositional Q) {item : Production} (hitem : item.Builds Q) :
    (Production.braced item).Builds Q := by
  intro state last hrun hstate
  obtain ⟨between, hbetween, ⟨-, rfl⟩ | ⟨-, rfl⟩⟩ := braced_keeps
    (fun _ _ hrun' => hitem _ _ hrun') hrun fun _ => hstate.bump hQ.incidental
  · exact hbetween.bump hQ.incidental
  · exact hbetween.missing hQ

theorem orRecover (hQ : Compositional Q) {item : Production} (hitem : item.Builds Q) :
    (Production.orRecover item).Builds Q := by
  intro state last hrun hstate
  rcases orRecover_eq_ok.mp hrun with ⟨-, rfl⟩ | ⟨next, hnext, -, rfl⟩ | ⟨htaken, -⟩
  · exact hstate.recovered hQ _
  · exact (hitem _ _ hnext hstate).recovered hQ _
  · exact hitem _ _ htaken hstate

/-- A compositional property is kept wherever names, lists of expressions and nonterminals keep
it. -/
theorem closed (hQ : Compositional Q) {grammar : Grammar} {depth : Nat}
    (hname : ∀ count, (qualifiedName count).Builds Q)
    (hlist : (expressionExt grammar depth).Builds Q)
    (hcalls : ∀ rule, (grammar rule depth).Builds Q) : Closed grammar depth (Builds Q) where
  skip := Leads.skip
  fail := Leads.fail
  take count kind hkind := take hQ count hkind
  string := string hQ
  choose := Leads.choose
  orElse := Leads.orElse
  seq := seq
  node := node hQ
  inScope := inScope hQ.incidental
  nodeThen := nodeThen hQ
  whileAhead := Leads.whileAhead
  braced := braced hQ
  recover := by
    intro state last hrun hstate
    obtain rfl := Except.ok.inj hrun
    exact hstate.recovered hQ _
  orRecover := orRecover hQ
  qualifiedName := hname
  expressionExt := hlist
  call := hcalls

end Builds

end Production

/-! ## Names and operands -/

/-- A property that leaves have, and that nodes have if their children have it, lists of
expressions apart. -/
structure Thorough (Q : Node → Prop) : Prop extends Compositional Q where
  operand : ∀ {kind : NodeKind} {children : List Node}, kind ≠ .expressionExt →
    (∀ child ∈ children, Q child) → Q (.ofChildren kind children)

namespace Production

namespace Builds

variable {Q : Node → Prop}

theorem furtherNames (hQ : Compositional Q) (count : Nat) :
    (Production.furtherNames count).Builds Q := by
  induction count with
  | zero => exact Leads.skip
  | succ count ih => exact (expect hQ.incidental "::").seq ((identifier hQ).seq ih)

theorem qualifiedName (hQ : Thorough Q) (count : Nat) :
    (Production.qualifiedName count).Builds Q := by
  have hcomp := hQ.toCompositional
  cases count with
  | zero => exact Leads.fail
  | succ count =>
    exact nodeOf hcomp.incidental (hQ.operand (by decide)) <|
      (optional hcomp.incidental "::").seq ((identifier hcomp).seq (furtherNames hcomp count))

variable {grammar : Grammar} {depth : Nat}

theorem argumentList (hQ : Thorough Q) (h : Closed grammar depth (Builds Q)) :
    (Production.argumentList grammar depth).Builds Q :=
  nodeOf hQ.incidental (hQ.operand (by decide)) <| h.seq (h.expect "(") <|
    h.seq (h.unlessAt (h.commaSeparated (h.call _))) (h.expect ")")

theorem primary (hQ : Thorough Q) (h : Closed grammar depth (Builds Q)) :
    (Production.primary grammar depth).Builds Q := by
  have hnode : ∀ {body : Production}, body.Builds Q → (Production.node .expression body).Builds Q :=
    nodeOf hQ.incidental (hQ.operand (by decide))
  exact h.ifAhead (hnode h.literal) <|
    h.ifAt (hnode (h.seq h.bump (h.seq h.expressionExt (h.expect ")")))) <|
    h.ifAhead (hnode (h.seq h.numericType (argumentList hQ h))) <|
    h.ifAhead (hnode h.idExpression) h.fail

theorem postfixes (hQ : Thorough Q) (h : Closed grammar depth (Builds Q)) :
    (Production.postfixes grammar depth).Builds Q :=
  Leads.whileAhead <| encloseOf (hQ.operand (by decide)) <|
    h.ifAt (h.seq h.bump h.idExpression) <|
    h.ifAt (h.seq h.bump (h.seq (h.call _) (h.expect "]"))) <|
    h.ifAt (argumentList hQ h) (h.tokenNode (by decide))

theorem cast (hQ : Thorough Q) (h : Closed grammar depth (Builds Q)) :
    (Production.cast grammar depth).Builds Q :=
  nodeOf hQ.incidental (hQ.operand (by decide)) <| h.seq h.bump <| h.choose fun _ =>
    h.seq (h.call .type) <| h.seq (h.whileAt h.arrayRank) <| h.seq (h.expect ")") <|
    h.seq (h.guard _) (h.call .unary)

theorem unary (hQ : Thorough Q)
    (h : depth < Grammar.maxDepth → Closed grammar (depth + 1) (Builds Q)) :
    (Production.unary grammar depth).Builds Q := by
  refine Leads.nested fun hdepth => ?_
  have hclosed := h hdepth
  have hoperand := hclosed.inScope (hclosed.seq (primary hQ hclosed) (postfixes hQ hclosed))
  exact hclosed.ifAhead
    (nodeOf hQ.incidental (hQ.operand (by decide))
      (hclosed.seq (hclosed.tokenNode (by decide)) (hclosed.call .unary)))
    (hclosed.ifAt (hclosed.orElse (cast hQ hclosed) hoperand) hoperand)

/-- What a nonterminal builds below the check of its depth, expressions apart. -/
theorem step (hQ : Thorough Q) {rule : Rule} (hrule : ∀ minPower, rule ≠ .expression minPower)
    (h : depth < Grammar.maxDepth → Closed grammar (depth + 1) (Builds Q)) :
    (Grammar.step grammar rule depth).Builds Q := by
  by_cases hunary : rule = .unary
  · subst hunary
    exact unary hQ h
  · exact Closed.step ⟨hunary, hrule⟩ Leads.fail h

end Builds

end Production

end Azsl
