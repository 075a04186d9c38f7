/-
Azsl.Proofs.Grammar.Adequacy — the grammar never runs out of steps.

A call of a nonterminal nests one level deeper, or takes a token before it calls again, or is
the first operand of an expression. `Rule.cost` bounds the calls inside one another by that,
and `Grammar.fuelFor` allows for as many as the whole input can cost.
-/
import Azsl.Proofs.Grammar.Progress
import Azsl.Proofs.Grammar.Statements

namespace Azsl

/-! ## Combinations -/

namespace Twin

variable {grammar grammar' : Grammar} {depth : Nat} {mode : Mode} {known : List Lexeme → Prop}
  {takes : Bool} {pending next : List Closer} {body body' : Production}

/-- A combination runs out of steps only in a nonterminal. -/
theorem terminates (h : Twin grammar grammar' depth mode known takes pending next body body')
    (hadvances : grammar.Advances depth) {limit : Nat}
    (hcalls : ∀ (rule : Rule) (state : ParseState), state.rest.length ≤ limit →
      grammar rule depth state ≠ .error .outOfFuel)
    {state : ParseState} (hlimit : state.rest.length ≤ limit)
    (hknown : known (Lexeme.bare state.rest)) : body state ≠ .error .outOfFuel := by
  induction h generalizing state with
  | skip => simp
  | fail => simp [Production.fail]
  | take => simp [Production.bumpJoined]
  | string =>
    unfold Production.stringLiteral
    split
    · split <;> simp
    · simp
  | @choose _ _ _ _ _ select _ hselect _ _ ih =>
    show select state.rest state ≠ _
    rw [← hselect.bare]
    exact ih _ hknown hlimit rfl
  | @orElse _ _ _ _ _ first _ second _ _ _ _ ih₁ ih₂ =>
    unfold Production.orElse
    have hfirst := ih₁ hlimit hknown
    cases hrun : first state with
    | ok last => simp
    | error stop =>
      cases stop with
      | mismatch => exact ih₂ hlimit hknown
      | outOfFuel => exact absurd hrun hfirst
  | @seq _ _ _ _ _ _ _ _ first _ second _ htwin _ _ ih₁ ih₂ =>
    rw [Production.seq_apply]
    have hfirst := ih₁ hlimit hknown
    cases hrun : first state with
    | error stop =>
      rw [hrun] at hfirst
      exact hfirst
    | ok between =>
      have hle := (htwin.advances hadvances hknown hrun).1.length_le
      exact ih₂ (by omega) trivial
  | @node _ _ _ _ _ body _ _ _ ih =>
    rw [Production.node_apply]
    have hinner : body state.flush.opened ≠ .error .outOfFuel :=
      ih (by simpa using hlimit) (by simpa using hknown)
    cases hrun : body state.flush.opened with
    | ok inner => simp [Except.map]
    | error stop => rwa [hrun] at hinner
  | @inScope _ _ _ _ _ body _ _ ih =>
    rw [Production.inScope_apply]
    have hinner : body state.flush.opened ≠ .error .outOfFuel :=
      ih (by simpa using hlimit) (by simpa using hknown)
    cases hrun : body state.flush.opened with
    | ok inner => simp [Except.map]
    | error stop => rwa [hrun] at hinner
  | @enclose _ _ _ _ _ body _ _ _ ih =>
    rw [Production.enclose_apply]
    have hinner := ih hlimit hknown
    cases hrun : body state with
    | ok inner => simp [Except.map]
    | error stop => rwa [hrun] at hinner
  | @whileAhead _ _ _ _ look body _ hlook htwin _ ih =>
    have hl : ∀ {state : ParseState}, look state.rest = true →
        look (Lexeme.bare state.rest) = true := fun h => (hlook.bare _).trans h
    exact Production.iterate_whileTurn_ne_outOfFuel
      (fun hlooks hbody => (htwin.advances hadvances (hl hlooks) hbody).2 rfl)
      (fun hlooks hle => ih (by omega) (hl hlooks)) (Nat.lt_succ_self _)
  | @braced _ _ _ item _ htwin ih =>
    unfold Production.braced Production.expect
    rw [Production.seq_apply]
    split
    · have hle := state.bump_follows.length_le
      exact Production.iterate_bracedTurn_ne_outOfFuel
        (fun hsees hne hitem =>
          (htwin.advances hadvances (Lookahead.item_bare.mpr ⟨hne, hsees⟩) hitem).2 rfl)
        (fun hsees hne hle' => ih (by omega) (Lookahead.item_bare.mpr ⟨hne, hsees⟩))
        (Nat.lt_succ_self _)
    · simp [Except.bind]
  | recover => simp [Production.recover]
  | @orRecover _ _ item _ _ _ ih =>
    unfold Production.orRecover
    have hitem := ih hlimit hknown
    cases hrun : item state with
    | ok last => simp
    | error stop =>
      cases stop with
      | mismatch => simp
      | outOfFuel => exact absurd hrun hitem
  | call rule => exact hcalls rule state hlimit
  | weaken _ _ hk _ ih => exact ih hlimit (hk _ hknown)
  | enter _ _ ih => exact ih hlimit hknown

end Twin

/-! ## Nonterminals -/

namespace Grammar

/-- Every nonterminal takes a token, however many calls inside one another are allowed. -/
theorem upTo_advances (fuel depth : Nat) : (upTo fuel).Advances depth := by
  induction fuel generalizing depth with
  | zero =>
    intro rule state last hrun
    cases hrun
  | succ fuel ih =>
    intro rule state last hrun
    have hstep : Twin (upTo fuel) (upTo fuel) _ _ Unknown true [] [] _ _ := .step rule depth
    obtain ⟨hfollows, htakes⟩ := hstep.advances (ih _) trivial hrun
    exact ⟨hfollows, htakes rfl⟩

theorem upTo_builds (fuel depth : Nat) : (upTo fuel).Builds depth := by
  induction fuel generalizing depth with
  | zero =>
    intro rule state last hrun
    cases hrun
  | succ fuel ih =>
    intro rule state last hrun
    have hstep : Twin (upTo fuel) (upTo fuel) _ _ Unknown true [] [] _ _ := .step rule depth
    exact hstep.grows (ih _) trivial hrun

end Grammar

namespace Rule

/-- A bound on the calls inside one another, at a depth and for so many tokens. -/
def cost (rule : Rule) (depth tokens : Nat) : Nat :=
  2 * (tokens + (Grammar.maxDepth - depth)) +
    match rule with
    | expression _ => 1
    | _ => 0

theorem cost_le (rule : Rule) (depth tokens : Nat) :
    rule.cost depth tokens ≤ 2 * (tokens + (Grammar.maxDepth - depth)) + 1 := by
  unfold cost
  split <;> omega

theorem le_cost (rule : Rule) (depth tokens : Nat) :
    2 * (tokens + (Grammar.maxDepth - depth)) ≤ rule.cost depth tokens :=
  Nat.le_add_right _ _

/-- All rules but expressions nest. -/
theorem innerDepth_eq (rule : Rule) {depth : Nat}
    (h : ∀ minPower, rule ≠ .expression minPower) : rule.innerDepth depth = depth + 1 := by
  cases rule with
  | expression minPower => exact absurd rfl (h minPower)
  | type | unary | initializer | structured | block | embedded => rfl

end Rule

namespace Grammar

/-- Input nested too deeply does not match. -/
theorem step_of_maxDepth_le {grammar : Grammar} {rule : Rule} {depth : Nat}
    (hrule : ∀ minPower, rule ≠ .expression minPower) (hdepth : maxDepth ≤ depth) :
    grammar.step rule depth = Production.fail := by
  cases rule with
  | expression minPower => exact absurd rfl (hrule minPower)
  | type | unary | initializer | structured | block | embedded => exact if_pos hdepth

/-- An expression does not run out of steps if its first operand does not, and nothing behind
the first token does. -/
theorem expression_terminates {grammar : Grammar} {minPower depth : Nat} {state : ParseState}
    (hadvances : grammar.Advances depth)
    (hfirst : ∀ here : ParseState, here.rest.length = state.rest.length →
      grammar .unary depth here ≠ .error .outOfFuel)
    (hcalls : ∀ (rule : Rule) (here : ParseState), here.rest.length < state.rest.length →
      grammar rule depth here ≠ .error .outOfFuel) :
    Production.expression grammar minPower depth state ≠ .error .outOfFuel := by
  unfold Production.expression
  rw [Production.inScope_apply, Production.seq_apply]
  have hunary := hfirst state.flush.opened (by simp)
  cases hrun : grammar .unary depth state.flush.opened with
  | error stop =>
    rw [hrun] at hunary
    exact hunary
  | ok between =>
    have hshorter : between.rest.length < state.rest.length := by
      simpa using (hadvances .unary hrun).2
    have hinfixes : Twin grammar grammar depth .inner Unknown false [] [] _ _ :=
      .infixes minPower
    have hloop := hinfixes.terminates hadvances
      (fun rule here hle => hcalls rule here (Nat.lt_of_le_of_lt hle hshorter))
      (Nat.le_refl _) trivial
    simp only [Except.bind]
    cases hrest : Production.whileAhead (Infix.binds minPower)
        (Production.enclose .expression (Production.infixNext grammar depth)) between with
    | error stop => rwa [hrest] at hloop
    | ok last => simp [Except.map]

/-- A nonterminal does not run out of steps if its cost is allowed for. -/
theorem upTo_terminates {fuel : Nat} {rule : Rule} {depth : Nat} {state : ParseState}
    (hcost : rule.cost depth state.rest.length < fuel) :
    upTo fuel rule depth state ≠ .error .outOfFuel := by
  induction fuel generalizing rule depth state with
  | zero => omega
  | succ fuel ih =>
    show step (upTo fuel) rule depth state ≠ _
    by_cases hrule : ∃ minPower, rule = .expression minPower
    · obtain ⟨minPower, rfl⟩ := hrule
      refine expression_terminates (upTo_advances fuel depth) (fun here hlen => ih ?_)
        fun rule here hlt => ih ?_
      · simp only [Rule.cost] at hcost ⊢
        omega
      · have := rule.cost_le depth here.rest.length
        simp only [Rule.cost] at hcost
        omega
    · have hother : ∀ minPower, rule ≠ .expression minPower := fun minPower h => hrule ⟨_, h⟩
      by_cases hdepth : maxDepth ≤ depth
      · rw [step_of_maxDepth_le hother hdepth]
        simp [Production.fail]
      · have hstep : Twin (upTo fuel) (upTo fuel) _ _ Unknown true [] [] _ _ := .step rule depth
        rw [rule.innerDepth_eq hother] at hstep
        refine hstep.terminates (upTo_advances fuel _) (fun rule' here hle => ih ?_)
          (Nat.le_refl _) trivial
        have := rule'.cost_le (depth + 1) here.rest.length
        have := rule.le_cost depth state.rest.length
        omega

/-- Within the bound for its tokens no nonterminal runs out of steps. -/
theorem forTokens_terminates {tokens : Nat} (rule : Rule) (depth : Nat) {state : ParseState}
    (h : state.rest.length ≤ tokens) :
    forTokens tokens rule depth state ≠ .error .outOfFuel := by
  refine upTo_terminates ?_
  have := rule.cost_le depth state.rest.length
  unfold fuelFor
  omega

end Grammar

/-- Neither does the declaration at the front of the input. -/
theorem Production.topLevelDeclaration_terminates {tokens depth : Nat} {state : ParseState}
    (h : state.rest.length ≤ tokens) :
    topLevelDeclaration (.forTokens tokens) depth state ≠ .error .outOfFuel := by
  have htwin : Twin (.forTokens tokens) (.forTokens tokens) depth _ Unknown true [] [] _ _ :=
    .topLevelDeclaration
  exact htwin.terminates (Grammar.upTo_advances _ depth)
    (fun rule here hle => Grammar.forTokens_terminates rule depth (Nat.le_trans hle h))
    (Nat.le_refl _) trivial

end Azsl
