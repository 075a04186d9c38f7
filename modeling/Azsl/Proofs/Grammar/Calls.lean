/-
Azsl.Proofs.Grammar.Calls — calls of nonterminals inside one another.

A call comes to another one if it gets stuck whenever that one does. Such a callee stands at the
same token or behind it. At the same token it stands deeper, unless an expression calls its first
operand. So along a chain of calls at one token the depth grows between any two calls of the same
nonterminal, and no chain is longer than `Rule.cost` allows.
-/
import Azsl.Proofs.Grammar.Whole
import Mathlib.Logic.Relation

namespace Azsl

/-- A call of a nonterminal: at which depth, and from which state. -/
structure Call where
  rule : Rule
  depth : Nat
  state : ParseState

namespace Rule

/-- The production that a nonterminal is parsed by, whatever power it is asked for. -/
def production : Rule → Rule
  | expression _ => expression 0
  | rule => rule

end Rule

namespace Call

/-- The number of tokens in front of a call; equal numbers mean the same place. -/
def tokens (call : Call) : Nat := call.state.rest.length

/-- The depth of the productions inside of a call. -/
def innerDepth (call : Call) : Nat := call.rule.innerDepth call.depth

/-- A bound on the calls inside one another from this one on. -/
def cost (call : Call) : Nat := call.rule.cost call.depth call.tokens

open Classical in
/-- The whole grammar, but for one call that never comes to an end. -/
noncomputable def stuckAt (callee : Call) : Grammar := fun rule depth state =>
  if (⟨rule, depth, state⟩ : Call) = callee then .error .outOfFuel
  else Grammar.whole rule depth state

/-- One call comes to another, with no call of a nonterminal in between: it gets stuck when the
other one does. -/
def Calls (caller callee : Call) : Prop :=
  Grammar.step callee.stuckAt caller.rule caller.depth caller.state = .error .outOfFuel

theorem stuckAt_advances (callee : Call) (depth : Nat) : callee.stuckAt.Advances depth := by
  intro rule state last hrun
  unfold stuckAt at hrun
  split at hrun
  · cases hrun
  · exact Grammar.upTo_advances _ depth rule hrun

/-- No call but the one is stuck. -/
theorem eq_of_stuckAt {callee : Call} {rule : Rule} {depth : Nat} {state : ParseState}
    (h : callee.stuckAt rule depth state = .error .outOfFuel) : ⟨rule, depth, state⟩ = callee := by
  unfold stuckAt at h
  split at h
  · assumption
  · exact absurd h (Grammar.whole_terminates rule depth state)

namespace Calls

variable {caller callee first second last : Call}

/-- A callee stands at the depth of what is inside its caller, and not before it. -/
theorem place (h : Calls caller callee) :
    callee.depth = caller.innerDepth ∧ callee.tokens ≤ caller.tokens := by
  by_contra hplace
  have hstep : Twin callee.stuckAt callee.stuckAt _ _ Unknown true [] [] _ _ :=
    .step caller.rule caller.depth
  refine hstep.terminates (stuckAt_advances callee _) (fun rule state hle hstuck => ?_)
    (Nat.le_refl _) trivial h
  obtain rfl := eq_of_stuckAt hstuck
  exact hplace ⟨rfl, hle⟩

/-- At its own place an expression comes to its first operand only. -/
theorem rule_eq_unary {minPower : Nat} (h : Calls caller callee)
    (hrule : caller.rule = .expression minPower) (hsame : callee.tokens = caller.tokens) :
    callee.rule = .unary := by
  by_contra hne
  unfold Calls at h
  rw [hrule] at h
  refine Grammar.expression_terminates (stuckAt_advances callee _) (fun here hlen hstuck => ?_)
    (fun rule here hlt hstuck => ?_) h
  · obtain rfl := eq_of_stuckAt hstuck
    exact hne rfl
  · obtain rfl := eq_of_stuckAt hstuck
    exact absurd hsame (Nat.ne_of_lt hlt)

/-- Only expressions come to a call where nothing may be nested any more. -/
theorem lt_maxDepth (h : Calls caller callee)
    (hrule : ∀ minPower, caller.rule ≠ .expression minPower) : caller.depth < Grammar.maxDepth := by
  by_contra hdepth
  unfold Calls at h
  rw [Grammar.step_of_maxDepth_le hrule (Nat.le_of_not_lt hdepth)] at h
  cases h

/-- Either a callee stands one level deeper, or its caller is an expression and as deep. -/
theorem depth_cases (h : Calls caller callee) :
    (callee.depth = caller.depth + 1 ∧ callee.depth ≤ Grammar.maxDepth) ∨
      ((∃ minPower, caller.rule = .expression minPower) ∧ callee.depth = caller.depth) := by
  obtain ⟨hdepth, -⟩ := h.place
  by_cases hrule : ∃ minPower, caller.rule = .expression minPower
  · obtain ⟨minPower, hminPower⟩ := hrule
    refine .inr ⟨⟨minPower, hminPower⟩, ?_⟩
    rw [hdepth, innerDepth, hminPower]
    rfl
  · have hother : ∀ minPower, caller.rule ≠ .expression minPower := fun _ h => hrule ⟨_, h⟩
    have hlt := h.lt_maxDepth hother
    rw [innerDepth, Rule.innerDepth_eq _ hother] at hdepth
    exact .inl ⟨hdepth, by omega⟩

theorem le_maxDepth (h : Calls caller callee) (hdepth : caller.depth ≤ Grammar.maxDepth) :
    callee.depth ≤ Grammar.maxDepth := by
  rcases h.depth_cases with ⟨-, hle⟩ | ⟨-, hsame⟩
  · exact hle
  · exact hsame ▸ hdepth

/-- Every call allows for fewer calls inside one another than its caller. -/
theorem cost_lt (h : Calls caller callee) : callee.cost < caller.cost := by
  obtain ⟨-, htokens⟩ := h.place
  have hcallee := callee.rule.cost_le callee.depth callee.tokens
  have hcaller := caller.rule.le_cost caller.depth caller.tokens
  unfold cost
  rcases h.depth_cases with ⟨hdepth, hle⟩ | ⟨⟨minPower, hrule⟩, hdepth⟩
  · omega
  · have hexpression : caller.rule.cost caller.depth caller.tokens
        = 2 * (caller.tokens + (Grammar.maxDepth - caller.depth)) + 1 := by
      rw [hrule]
      rfl
    rw [hexpression]
    rcases Nat.lt_or_eq_of_le htokens with hlt | hsame
    · rw [hdepth] at hcallee ⊢
      omega
    · rw [h.rule_eq_unary hrule hsame, hsame, hdepth]
      exact Nat.lt_succ_self _

/-! ## Chains -/

/-- A chain of calls goes on at the same place or behind it. At the same place it goes deeper, if
it is no expression with its first operand. -/
theorem chain (h : Relation.TransGen Calls first last) :
    last.tokens ≤ first.tokens ∧ (last.tokens = first.tokens →
      first.depth < last.depth ∨
        (∃ minPower, first.rule = .expression minPower) ∧ last.rule = .unary ∧
          last.depth = first.depth) := by
  induction h with
  | single h =>
    refine ⟨h.place.2, fun hsame => ?_⟩
    rcases h.depth_cases with ⟨hdepth, -⟩ | ⟨⟨minPower, hrule⟩, hdepth⟩
    · exact .inl (by omega)
    · exact .inr ⟨⟨minPower, hrule⟩, h.rule_eq_unary hrule hsame, hdepth⟩
  | tail _ h ih =>
    obtain ⟨hle, hdeeper⟩ := ih
    have hplace := h.place.2
    refine ⟨by omega, fun hsame => .inl ?_⟩
    rcases hdeeper (by omega) with hlt | ⟨-, hunary, hdepth⟩
    · rcases h.depth_cases with ⟨hnext, -⟩ | ⟨-, hnext⟩ <;> omega
    · rcases h.depth_cases with ⟨hnext, -⟩ | ⟨⟨minPower, hrule⟩, -⟩
      · omega
      · rw [hunary] at hrule
        cases hrule

/-- Between two calls of one production at the same place the depth has grown. -/
theorem depth_lt (h : Relation.TransGen Calls first last) (hsame : last.tokens = first.tokens)
    (hproduction : last.rule.production = first.rule.production) : first.depth < last.depth := by
  rcases (chain h).2 hsame with hlt | ⟨⟨minPower, hfirst⟩, hlast, -⟩
  · exact hlt
  · rw [hfirst, hlast] at hproduction
    cases hproduction

/-- What stands inside of a call other than an expression stands deeper than what stands inside of
every call that it was reached from at its place. -/
theorem innerDepth_lt (h : Calls caller first) (hchain : Relation.ReflTransGen Calls first last)
    (hsame : last.tokens = first.tokens) (hrule : ∀ minPower, last.rule ≠ .expression minPower) :
    caller.innerDepth < last.innerDepth := by
  have hle : first.depth ≤ last.depth := by
    rcases Relation.reflTransGen_iff_eq_or_transGen.mp hchain with rfl | hchain
    · exact Nat.le_refl _
    · rcases (chain hchain).2 hsame with hlt | ⟨-, -, hdepth⟩ <;> omega
  rw [← h.place.1, innerDepth, Rule.innerDepth_eq _ hrule]
  omega

/-- The depth stays within its bound along a chain. -/
theorem chain_le_maxDepth (h : Relation.TransGen Calls first last)
    (hdepth : first.depth ≤ Grammar.maxDepth) : last.depth ≤ Grammar.maxDepth := by
  induction h with
  | single h => exact h.le_maxDepth hdepth
  | tail _ h ih => exact h.le_maxDepth ih

end Calls

end Call

end Azsl
