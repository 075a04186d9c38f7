/-
Azsl.Proofs.Parse.Ends — parsing comes to an end on every input.

A file is parsed declaration by declaration, and each takes a token, copied or not. Inside a
declaration every loop takes a token in each turn, and calls inside one another get deeper before
they come to the same production at the same place again. So the bounds that `parse` counts its
steps by are never reached: with higher ones the tree is the same (`parse_ends`).
-/
import Azsl.Proofs.Grammar.Calls
import Azsl.Proofs.Grammar.Turns
import Azsl.Proofs.Parse.Fresh

namespace Azsl

namespace Parse

/-! ## Declarations of a file -/

/-- A declaration that is copied ends behind the first token that is left. -/
theorem restBehind?_length_lt {rest behind : List Lexeme} {byte : Nat}
    (h : restBehind? rest byte = some behind) : behind.length < rest.length := by
  unfold restBehind? at h
  simp only at h
  split at h
  · rename_i hlast
    obtain rfl := Option.some.inj h
    have hcovered : rest.takeWhile (·.token.stop.byte ≤ byte) ≠ [] := by
      intro hnil
      rw [hnil] at hlast
      cases hlast
    have hpos := List.length_pos_iff.mpr hcovered
    have hle := (List.takeWhile_prefix (fun lexeme : Lexeme => decide
      (lexeme.token.stop.byte ≤ byte)) (l := rest)).length_le
    rw [List.length_drop]
    omega
  · cases h

theorem reuse?_length_lt {starts : List Nat} {progress next : Progress}
    (h : reuse? starts progress = some next) :
    next.state.rest.length < progress.state.rest.length := by
  unfold reuse? at h
  split at h
  · cases h
  · rename_i first others hrest
    simp only at h
    split at h
    · cases h
    · split at h
      · cases h
      · rename_i behind hbehind
        obtain rfl := Option.some.inj h
        exact restBehind?_length_lt hbehind

/-- Copied or parsed, a declaration takes a token. -/
theorem advance_length_lt (calls : Nat) (starts : List Nat) {progress : Progress}
    (h : progress.state.rest ≠ []) :
    (advance (.upTo calls) starts progress).state.rest.length
      < progress.state.rest.length := by
  unfold advance
  split
  · rename_i next hreuse
    exact reuse?_length_lt hreuse
  · exact declare_length_lt calls h

/-- As many turns as there are tokens use up the input. -/
theorem declarations_rest {calls turns : Nat} {starts : List Nat} {progress : Progress}
    (h : progress.state.rest.length ≤ turns) :
    (declarations (.upTo calls) starts turns progress).state.rest = [] := by
  induction turns generalizing progress with
  | zero => exact List.length_eq_zero_iff.mp (Nat.le_zero.mp h)
  | succ turns ih =>
    rw [declarations]
    split
    · rename_i hend
      simpa [ParseState.atEnd] using hend
    · rename_i hend
      have hne : progress.state.rest ≠ [] := by simpa [ParseState.atEnd] using hend
      have hlt := advance_length_lt calls starts hne
      exact ih (by omega)

/-! ## More steps than needed -/

/-- A declaration does not run out of steps where as many are allowed as its tokens need. -/
theorem topLevelDeclaration_ne_outOfFuel {calls tokens : Nat} {state : ParseState}
    (hcalls : Grammar.fuelFor tokens ≤ calls) (h : state.rest.length ≤ tokens) :
    Production.topLevelDeclaration (.upTo calls) 0 state
      = Production.topLevelDeclaration (.forTokens tokens) 0 state ∧
    Production.topLevelDeclaration (.upTo calls) 0 state ≠ .error .outOfFuel := by
  have hends : Production.topLevelDeclaration (.forTokens tokens) 0 state ≠ .error .outOfFuel :=
    Production.topLevelDeclaration_terminates h
  have htwin : Twin (.forTokens tokens) (.upTo calls) 0 _ Unknown true [] [] _ _ :=
    .topLevelDeclaration
  have hextends : (Grammar.upTo calls).Extends (.forTokens tokens) 0 :=
    Grammar.upTo_extends hcalls 0
  have hsame := htwin.same hextends trivial hends
  refine ⟨hsame, ?_⟩
  rw [hsame]
  exact hends

theorem advance_eq {calls tokens : Nat} {starts : List Nat} {progress : Progress}
    (hcalls : Grammar.fuelFor tokens ≤ calls) (h : progress.state.rest.length ≤ tokens) :
    advance (.upTo calls) starts progress = advance (.forTokens tokens) starts progress := by
  unfold advance declare
  rw [(topLevelDeclaration_ne_outOfFuel hcalls h).1]

/-- More turns and more calls inside one another than the tokens need change nothing. -/
theorem declarations_eq {calls tokens turns turns' : Nat} {starts : List Nat}
    {progress : Progress} (hcalls : Grammar.fuelFor tokens ≤ calls)
    (htokens : progress.state.rest.length ≤ tokens)
    (hturns : progress.state.rest.length ≤ turns) (hturns' : progress.state.rest.length ≤ turns') :
    declarations (.upTo calls) starts turns progress
      = declarations (.forTokens tokens) starts turns' progress := by
  induction turns generalizing turns' progress with
  | zero =>
    have hnil : progress.state.atEnd = true := by
      simpa [ParseState.atEnd] using hturns
    cases turns' with
    | zero => rfl
    | succ turns' => rw [declarations, declarations, if_pos hnil]
  | succ turns ih =>
    by_cases hend : progress.state.atEnd = true
    · cases turns' with
      | zero => rw [declarations, declarations, if_pos hend]
      | succ turns' => rw [declarations, declarations, if_pos hend, if_pos hend]
    · have hne : progress.state.rest ≠ [] := by simpa [ParseState.atEnd] using hend
      have hpos := List.length_pos_iff.mpr hne
      obtain ⟨turns', rfl⟩ : ∃ more, turns' = more + 1 := ⟨turns' - 1, by omega⟩
      have hlt := advance_length_lt (Grammar.fuelFor tokens) starts hne
      rw [← Grammar.forTokens] at hlt
      rw [declarations, declarations, if_neg hend, if_neg hend, advance_eq hcalls htokens]
      exact ih (by omega) (by omega) (by omega)

/-- The tree of a text, with so many calls of nonterminals inside one another and so many
declarations allowed for. -/
def within (calls turns : Nat) (chars : List Char) (old : Option SyntaxTree) : SyntaxTree :=
  finish <| declarations (.upTo calls) (lineStarts chars) turns
    ⟨initial chars, earlierDeclarations old, ⟨0, 0⟩⟩

/-! ## Ends -/

/-- How the parse of a text comes to an end, with the help of an earlier tree or without. -/
structure Ends (chars : List Char) (old : Option SyntaxTree) : Prop where
  /-- Every turn of the loop over a file takes a token. -/
  file : ∀ calls starts (progress : Progress), progress.state.rest ≠ [] →
    (advance (.upTo calls) starts progress).state.rest.length < progress.state.rest.length
  /-- Every turn of every other loop takes a token or leaves the loop. -/
  loops : ∀ calls depth state,
    TurnsAdvance (.upTo calls) depth
        (Production.topLevelDeclaration (.upTo calls) depth) state ∧
      ∀ rule, TurnsAdvance (.upTo calls) (rule.innerDepth depth)
        (Grammar.step (.upTo calls) rule depth) state
  /-- Along a chain of calls, the depth grows between two calls of the same production at the same
  place. -/
  deeper : ∀ first last, Relation.TransGen Call.Calls first last → last.tokens = first.tokens →
    last.rule.production = first.rule.production → first.depth < last.depth
  /-- Productions that are no nonterminals are called inside of one. Where a chain comes to such a
  production again, it stands deeper, too: at its own place an expression comes to nothing but its
  first operand. -/
  inner : ∀ caller first last, Call.Calls caller first →
    Relation.ReflTransGen Call.Calls first last → last.tokens = first.tokens →
    caller.innerDepth < last.innerDepth ∨
      (∃ minPower, last.rule = .expression minPower) ∧
        ∀ next, Call.Calls last next → next.tokens = last.tokens → next.rule = .unary
  /-- Every call in a chain has a smaller bound on the calls that may follow it. -/
  ranked : ∀ caller callee, Call.Calls caller callee → callee.cost < caller.cost
  /-- The depth is bounded. -/
  capped : ∀ first last, Relation.TransGen Call.Calls first last →
    first.depth ≤ Grammar.maxDepth → last.depth ≤ Grammar.maxDepth
  /-- No bound on the steps is reached. -/
  enough : ∀ calls, Grammar.fuelFor (initial chars).rest.length ≤ calls →
    ∀ state : ParseState, state.rest.length ≤ (initial chars).rest.length →
    Production.topLevelDeclaration (.upTo calls) 0 state ≠ .error .outOfFuel ∧
      ∀ rule depth, Grammar.upTo calls rule depth state ≠ .error .outOfFuel
  finished : ∀ calls turns, (initial chars).rest.length ≤ turns →
    (declarations (.upTo calls) (lineStarts chars) turns
      ⟨initial chars, earlierDeclarations old, ⟨0, 0⟩⟩).state.rest = []
  /-- Higher bounds do not change the tree. -/
  settled : ∀ calls turns, Grammar.fuelFor (initial chars).rest.length ≤ calls →
    (initial chars).rest.length ≤ turns → within calls turns chars old = parse chars old

end Parse

/-- The parse of every text ends, whatever tree there is of an earlier text. -/
theorem parse_ends (chars : List Char) (old : Option SyntaxTree) : Parse.Ends chars old where
  file calls starts _ hne := Parse.advance_length_lt calls starts hne
  loops calls depth state :=
    ⟨Production.topLevelDeclaration_turnsAdvance calls depth state,
      fun rule => Grammar.step_turnsAdvance calls rule depth state⟩
  deeper _ _ hchain hsame hproduction := Call.Calls.depth_lt hchain hsame hproduction
  inner caller first last h hchain hsame := by
    by_cases hrule : ∃ minPower, last.rule = .expression minPower
    · obtain ⟨minPower, hrule⟩ := hrule
      exact .inr ⟨⟨minPower, hrule⟩, fun next hnext hplace => hnext.rule_eq_unary hrule hplace⟩
    · exact .inl (Call.Calls.innerDepth_lt h hchain hsame fun minPower h => hrule ⟨minPower, h⟩)
  ranked _ _ h := h.cost_lt
  capped _ _ hchain hdepth := Call.Calls.chain_le_maxDepth hchain hdepth
  enough calls hcalls state htokens := by
    refine ⟨(Parse.topLevelDeclaration_ne_outOfFuel hcalls htokens).2, fun rule depth => ?_⟩
    refine Grammar.upTo_terminates ?_
    have hcost := rule.cost_le depth state.rest.length
    unfold Grammar.fuelFor at hcalls
    omega
  finished _ _ hturns := Parse.declarations_rest hturns
  settled calls turns hcalls hturns := by
    have hsame := @Parse.declarations_eq calls (Parse.initial chars).rest.length turns
      (Parse.initial chars).rest.length (lineStarts chars)
      ⟨Parse.initial chars, Parse.earlierDeclarations old, ⟨0, 0⟩⟩ hcalls (Nat.le_refl _) hturns
      (Nat.le_refl _)
    exact congrArg Parse.finish hsame

end Azsl
