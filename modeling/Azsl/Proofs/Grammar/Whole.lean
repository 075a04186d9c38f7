/-
Azsl.Proofs.Grammar.Whole — the grammar without a bound on its steps.

More steps change nothing where fewer are enough, so that there is one grammar that all bounds
come to (`Grammar.whole`). It is a fixed point of `Grammar.step`: what it recognises can be
followed through the productions without counting calls.
-/
import Azsl.Proofs.Grammar.Adequacy

namespace Azsl

/-! ## Combinations -/

/-- One grammar goes on where another one, at a depth, runs out of steps, and differs nowhere
else. -/
def Grammar.Extends (grammar' grammar : Grammar) (depth : Nat) : Prop :=
  ∀ (rule : Rule) (state : ParseState), grammar rule depth state ≠ .error .outOfFuel →
    grammar' rule depth state = grammar rule depth state

namespace Production

variable {first first' second second' body body' : Production} {state : ParseState}

theorem bind_same (hfirst : first state ≠ .error .outOfFuel → first' state = first state)
    (hsecond : ∀ between, second between ≠ .error .outOfFuel → second' between = second between)
    (hrun : (first state).bind second ≠ .error .outOfFuel) :
    (first' state).bind second' = (first state).bind second := by
  cases hstate : first state with
  | error stop =>
    rw [hstate] at hrun
    rw [hfirst (by rw [hstate]; exact hrun), hstate]
    rfl
  | ok between =>
    rw [hstate] at hrun
    rw [hfirst (by simp [hstate]), hstate]
    exact hsecond between hrun

theorem map_same {f : ParseState → ParseState}
    (hbody : body state ≠ .error .outOfFuel → body' state = body state)
    (hrun : (body state).map f ≠ .error .outOfFuel) :
    (body' state).map f = (body state).map f := by
  rw [hbody]
  intro hfuel
  rw [hfuel] at hrun
  exact hrun rfl

end Production

namespace Twin

variable {grammar grammar' : Grammar} {depth : Nat} {mode : Mode} {known : List Lexeme → Prop}
  {takes : Bool} {pending next : List Closer} {body body' : Production}

/-- A combination that does not run out of steps is the same over a grammar that goes on. -/
theorem same (h : Twin grammar grammar' depth mode known takes pending next body body')
    (hextends : grammar'.Extends grammar depth) {state : ParseState}
    (hknown : known (Lexeme.bare state.rest)) (hrun : body state ≠ .error .outOfFuel) :
    body' state = body state := by
  induction h generalizing state with
  | skip | fail | take | string | recover => rfl
  | @choose _ _ _ _ _ select select' hselect hselect' _ ih =>
    have hbare : Production.choose select state = select (Lexeme.bare state.rest) state := by
      rw [hselect.bare]
      rfl
    have hbare' : Production.choose select' state = select' (Lexeme.bare state.rest) state := by
      rw [hselect'.bare]
      rfl
    rw [hbare] at hrun ⊢
    rw [hbare']
    exact ih _ hknown rfl hrun
  | @orElse _ _ _ _ _ first first' second second' _ _ _ ih₁ ih₂ =>
    unfold Production.orElse at hrun ⊢
    cases hfirst : first state with
    | ok last => rw [ih₁ hknown (by simp [hfirst]), hfirst]
    | error stop =>
      cases stop with
      | outOfFuel => simp [hfirst] at hrun
      | mismatch =>
        rw [hfirst] at hrun
        rw [ih₁ hknown (by simp [hfirst]), hfirst]
        exact ih₂ hknown hrun
  | seq _ _ _ ih₁ ih₂ =>
    exact Production.bind_same (ih₁ hknown) (fun _ => ih₂ trivial) hrun
  | node _ _ ih =>
    rw [Production.node_apply] at hrun ⊢
    rw [Production.node_apply]
    exact Production.map_same (ih (by simpa using hknown)) hrun
  | inScope _ ih =>
    rw [Production.inScope_apply] at hrun ⊢
    rw [Production.inScope_apply]
    exact Production.map_same (ih (by simpa using hknown)) hrun
  | enclose _ _ ih =>
    rw [Production.enclose_apply] at hrun ⊢
    rw [Production.enclose_apply]
    exact Production.map_same (ih hknown) hrun
  | @whileAhead _ _ _ _ look body body' hlook _ _ ih =>
    have hturns : ∀ (fuel : Nat) (here : ParseState),
        Production.iterate (Production.whileTurn look body) fuel here ≠ .error .outOfFuel →
        Production.iterate (Production.whileTurn look body') fuel here
          = Production.iterate (Production.whileTurn look body) fuel here := by
      intro fuel
      induction fuel with
      | zero =>
        intro here _
        rfl
      | succ fuel ihfuel =>
        intro here hhere
        rw [Production.iterate_whileTurn_succ] at hhere ⊢
        rw [Production.iterate_whileTurn_succ]
        by_cases hlooks : look here.rest = true
        · rw [if_pos hlooks] at hhere ⊢
          rw [if_pos hlooks]
          exact Production.bind_same (ih ((hlook.bare _).trans hlooks)) ihfuel hhere
        · rw [if_neg hlooks, if_neg hlooks]
    exact hturns _ _ hrun
  | @braced _ _ _ item item' _ ih =>
    have hturns : ∀ (fuel : Nat) (here : ParseState),
        Production.iterate (Production.bracedTurn item) fuel here ≠ .error .outOfFuel →
        Production.iterate (Production.bracedTurn item') fuel here
          = Production.iterate (Production.bracedTurn item) fuel here := by
      intro fuel
      induction fuel with
      | zero =>
        intro here _
        rfl
      | succ fuel ihfuel =>
        intro here hhere
        rw [Production.iterate_bracedTurn_succ] at hhere ⊢
        rw [Production.iterate_bracedTurn_succ]
        by_cases hsees : here.sees "\x7d" = true
        · rw [if_pos hsees, if_pos hsees]
        · by_cases hend : here.atEnd = true
          · rw [if_neg hsees, if_neg hsees, if_pos hend, if_pos hend]
          · rw [if_neg hsees, if_neg hend] at hhere ⊢
            rw [if_neg hsees, if_neg hend]
            refine Production.bind_same (ih ⟨?_, ?_⟩) ihfuel hhere
            · simpa [ParseState.atEnd, Lexeme.bare_eq_nil] using hend
            · rw [Lookahead.isAt_bare]
              simpa [ParseState.sees] using hsees
    unfold Production.braced at hrun ⊢
    rw [Production.seq_apply] at hrun ⊢
    rw [Production.seq_apply]
    exact Production.bind_same (fun _ => rfl) (fun between => hturns _ between) hrun
  | @orRecover _ _ item item' _ _ ih =>
    unfold Production.orRecover at hrun ⊢
    cases hitem : item state with
    | ok last => rw [ih hknown (by simp [hitem]), hitem]
    | error stop =>
      cases stop with
      | outOfFuel => simp [hitem] at hrun
      | mismatch => rw [ih hknown (by simp [hitem]), hitem]
  | call rule => exact hextends rule state hrun
  | weaken _ _ hk _ ih => exact ih (hk _ hknown) hrun
  | enter _ _ ih => exact ih hknown hrun

end Twin

/-! ## Nonterminals -/

namespace Grammar

theorem step_extends {grammar grammar' : Grammar} {rule : Rule} {depth : Nat}
    (h : grammar'.Extends grammar (rule.innerDepth depth)) {state : ParseState}
    (hrun : step grammar rule depth state ≠ .error .outOfFuel) :
    step grammar' rule depth state = step grammar rule depth state := by
  have hstep : Twin grammar grammar' _ _ Unknown true [] [] _ _ := .step rule depth
  exact hstep.same h trivial hrun

/-- More steps change nothing where fewer are enough. -/
theorem upTo_extends {fuel fuel' : Nat} (hle : fuel ≤ fuel') (depth : Nat) :
    (upTo fuel').Extends (upTo fuel) depth := by
  induction fuel generalizing fuel' depth with
  | zero =>
    intro rule state hrun
    exact absurd rfl hrun
  | succ fuel ih =>
    intro rule state hrun
    obtain ⟨more, rfl⟩ : ∃ more, fuel' = more + 1 := ⟨fuel' - 1, by omega⟩
    exact step_extends (ih (by omega) _) hrun

/-- The grammar with as many steps as it needs. -/
def whole : Grammar := fun rule depth state =>
  upTo (rule.cost depth state.rest.length + 1) rule depth state

theorem whole_terminates (rule : Rule) (depth : Nat) (state : ParseState) :
    whole rule depth state ≠ .error .outOfFuel :=
  upTo_terminates (Nat.lt_succ_self _)

theorem whole_extends (fuel depth : Nat) : whole.Extends (upTo fuel) depth := by
  intro rule state hrun
  have hmost := upTo_extends (Nat.le_max_left fuel (rule.cost depth state.rest.length + 1)) depth
    rule state hrun
  have hleast := upTo_extends (Nat.le_max_right fuel (rule.cost depth state.rest.length + 1))
    depth rule state (whole_terminates rule depth state)
  exact hleast.symm.trans hmost

/-- Nothing is gained by one more step. -/
theorem whole_eq_step (rule : Rule) (depth : Nat) : whole rule depth = step whole rule depth := by
  funext state
  have hrun : step (upTo (rule.cost depth state.rest.length)) rule depth state
      ≠ .error .outOfFuel := whole_terminates rule depth state
  exact (step_extends (whole_extends _ _) hrun).symm

end Grammar

/-- A declaration is parsed with as many steps as its tokens allow for, or with all. -/
theorem Production.topLevelDeclaration_eq_whole {tokens depth : Nat} {state : ParseState}
    (h : state.rest.length ≤ tokens) :
    topLevelDeclaration (.forTokens tokens) depth state
      = topLevelDeclaration .whole depth state := by
  have htwin : Twin (.forTokens tokens) .whole depth _ Unknown true [] [] _ _ :=
    .topLevelDeclaration
  exact (htwin.same (Grammar.whole_extends _ depth) trivial
    (topLevelDeclaration_terminates h)).symm

end Azsl
