/-
Azsl.Proofs.Parse.Fresh — parsing a text without an earlier tree.

Without an earlier tree the declarations of a file are parsed one after the other. Each takes a
token, so all tokens are used up in the end, and the children of the root cover them. A property
that every declaration gives to the nodes it builds is one of all children of the root.
-/
import Azsl.Grammar.Parse
import Azsl.Proofs.Grammar.Adequacy
import Azsl.Proofs.Grammar.Building
import Azsl.Proofs.Token.Place

namespace Azsl

/-! ## Nonterminals cover their tokens -/

theorem Grammar.upTo_covering (fuel depth : Nat) : (upTo fuel).Covering depth := by
  induction fuel generalizing depth with
  | zero =>
    intro rule state last lo past _ hrun
    cases hrun
  | succ fuel ih =>
    intro rule state last lo past hparsed hrun
    have hstep : Twin (upTo fuel) (upTo fuel) _ _ Unknown true [] [] _ _ := .step rule depth
    exact hstep.reads (upTo_advances fuel _) (ih _) hparsed trivial hrun

namespace Parse

/-! ## One declaration -/

theorem topLevelDeclaration_length_lt (fuel : Nat) {state next : ParseState}
    (h : Production.topLevelDeclaration (.upTo fuel) 0 state = .ok next) :
    next.rest.length < state.rest.length := by
  have htwin : Twin (.upTo fuel) (.upTo fuel) 0 _ Unknown true [] [] _ _ :=
    .topLevelDeclaration
  exact (htwin.advances (Grammar.upTo_advances fuel 0) trivial h).2 rfl

/-- A declaration that is parsed takes a token, so nothing is passed over behind it. -/
theorem declare_of_ok (fuel : Nat) {state next : ParseState}
    (h : Production.topLevelDeclaration (.upTo fuel) 0 state = .ok next) :
    declare (.upTo fuel) state = next := by
  have hlt := topLevelDeclaration_length_lt fuel h
  rw [declare, h]
  exact if_neg (by omega)

/-- A declaration takes a token, and so does passing over what is none. -/
theorem declare_length_lt (fuel : Nat) {state : ParseState} (h : state.rest ≠ []) :
    (declare (.upTo fuel) state).rest.length < state.rest.length := by
  cases hrun : Production.topLevelDeclaration (.upTo fuel) 0 state with
  | ok next =>
    rw [declare_of_ok fuel hrun]
    exact topLevelDeclaration_length_lt fuel hrun
  | error stop =>
    rw [declare, hrun]
    exact Recovery.run_length_lt _ h

theorem declare_reads (fuel : Nat) {state : ParseState} {lo : Nat} {past : List Token}
    (hparsed : state.Parsed lo past) (h : state.rest ≠ []) :
    ParseState.Reads lo past state (declare (.upTo fuel) state) := by
  cases hrun : Production.topLevelDeclaration (.upTo fuel) 0 state with
  | ok next =>
    have htwin : Twin (.upTo fuel) (.upTo fuel) 0 _ Unknown true [] [] _ _ :=
      .topLevelDeclaration
    rw [declare_of_ok fuel hrun]
    exact htwin.reads (Grammar.upTo_advances fuel 0) (Grammar.upTo_covering fuel 0) hparsed
      trivial hrun
  | error stop =>
    rw [declare, hrun]
    exact Recovery.reads_run _ hparsed h

/-! ## All declarations -/

/-- Parse declarations until the input is used up, at most `fuel` of them. -/
def declareAll (grammar : Grammar) : Nat → ParseState → ParseState
  | 0, state => state
  | fuel + 1, state =>
    if state.atEnd then state else declareAll grammar fuel (declare grammar state)

theorem reuse?_nil (starts : List Nat) (state : ParseState) (stats : ReuseStats) :
    reuse? starts ⟨state, [], stats⟩ = none := by
  unfold reuse?
  split
  · rfl
  · rfl

/-- Without an earlier tree every declaration is parsed. -/
theorem declarations_nil (grammar : Grammar) (starts : List Nat) (fuel : Nat)
    (state : ParseState) (stats : ReuseStats) :
    (declarations grammar starts fuel ⟨state, [], stats⟩).state
      = declareAll grammar fuel state := by
  induction fuel generalizing state stats with
  | zero => rfl
  | succ fuel ih =>
    rw [declarations, declareAll]
    split
    · rfl
    · rw [advance, reuse?_nil]
      exact ih _ _

theorem declareAll_rest {steps fuel : Nat} {state : ParseState}
    (h : state.rest.length ≤ fuel) : (declareAll (.upTo steps) fuel state).rest = [] := by
  induction fuel generalizing state with
  | zero => exact List.length_eq_zero_iff.mp (Nat.le_zero.mp h)
  | succ fuel ih =>
    rw [declareAll]
    split
    · rename_i hend
      simpa [ParseState.atEnd] using hend
    · rename_i hend
      have hne : state.rest ≠ [] := by simpa [ParseState.atEnd] using hend
      have hlt := declare_length_lt steps hne
      exact ih (by omega)

theorem declareAll_reads {steps fuel : Nat} {state : ParseState} {lo : Nat} {past : List Token}
    (hparsed : state.Parsed lo past) :
    ParseState.Reads lo past state (declareAll (.upTo steps) fuel state) := by
  induction fuel generalizing state past with
  | zero => exact .refl hparsed
  | succ fuel ih =>
    rw [declareAll]
    split
    · exact .refl hparsed
    · rename_i hend
      have hne : state.rest ≠ [] := by simpa [ParseState.atEnd] using hend
      exact (declare_reads steps hparsed hne).trans fun _ hparsed' => ih hparsed'

/-! ## Files -/

theorem initial_stream (chars : List Char) : (initial chars).stream = tokenize chars :=
  Lexeme.group_stream (tokenize chars)

theorem initial_parsed (chars : List Char) : (initial chars).Parsed 0 [] := by
  refine ⟨0, .nil (Nat.le_refl 0), ?_, ?_, ?_, ?_⟩
  · rw [initial_stream]
    exact tokenize_ordered chars
  · rw [initial_stream]
    exact fun token hmem => fine_of_mem_tokenize hmem
  · exact (Lexeme.group_kinds (tokenize chars)).1
  · exact (Lexeme.group_kinds (tokenize chars)).2

/-- The state behind the last declaration of a text. -/
def final (chars : List Char) : ParseState :=
  (declareAll (.forTokens (initial chars).rest.length) (initial chars).rest.length
    (initial chars)).flush

theorem parse_none_root (chars : List Char) :
    (parse chars none).root
      = .build .sourceFile .origin (final chars).textEnd (final chars).built.reverse := by
  show (finish (declarations _ _ _ _)).root = _
  unfold finish final
  rw [← declarations_nil _ (lineStarts chars) _ _ ⟨0, 0⟩]
  rfl

theorem root_kind (chars : List Char) : (parse chars none).root.kind = .sourceFile := by
  rw [parse_none_root]
  rfl

theorem final_reads (chars : List Char) :
    ParseState.Reads 0 [] (initial chars) (final chars) :=
  (declareAll_reads (initial_parsed chars)).trans fun _ hparsed => ParseState.reads_flush hparsed

theorem final_stream (chars : List Char) : (final chars).stream = [] := by
  have hrest : (declareAll (.forTokens (initial chars).rest.length) (initial chars).rest.length
      (initial chars)).rest = [] := declareAll_rest (Nat.le_refl _)
  simp [final, ParseState.flush_nil hrest, ParseState.stream, hrest]

theorem final_textEnd (chars : List Char) :
    (final chars).textEnd = Location.origin.advance chars := by
  obtain ⟨_, _, _, hend⟩ := final_reads chars
  exact hend

theorem root_start (chars : List Char) : (parse chars none).root.start = .origin := by
  rw [parse_none_root]
  rfl

theorem root_stop (chars : List Char) :
    (parse chars none).root.stop = Location.origin.advance chars := by
  rw [parse_none_root]
  exact final_textEnd chars

/-- The children of the root cover the tokens of the text. -/
theorem root_covers (chars : List Char) :
    ∃ hi ≤ byteLength chars, Covers (Location.origin.advance chars) 0 hi
      (parse chars none).root.children (tokenize chars) := by
  obtain ⟨taken, hstream, ⟨hi, hcovers, hready⟩, -⟩ := final_reads chars
  rw [final_stream, List.append_nil, initial_stream] at hstream
  rw [final_textEnd] at hcovers
  have hle := hready.ordered.le
  rw [final_textEnd, Location.byte_advance] at hle
  refine ⟨hi, by simpa [Location.origin] using hle, ?_⟩
  rw [parse_none_root, hstream]
  exact hcovers

/-! ## What declarations build -/

variable {Q : Node → Prop} {fuel : Nat} {state : ParseState}

theorem declare_all (hQ : Compositional Q)
    (h : Closed (.upTo fuel) 0 (Production.Builds Q)) (hstate : state.All Q) :
    (declare (.upTo fuel) state).All Q := by
  cases hrun : Production.topLevelDeclaration (.upTo fuel) 0 state with
  | ok next =>
    rw [declare_of_ok fuel hrun]
    exact h.topLevelDeclaration _ _ hrun hstate
  | error stop =>
    rw [declare, hrun]
    exact hstate.recovered hQ _

theorem declareAll_all (hQ : Compositional Q)
    (h : Closed (.upTo fuel) 0 (Production.Builds Q)) (steps : Nat) (hstate : state.All Q) :
    (declareAll (.upTo fuel) steps state).All Q := by
  induction steps generalizing state with
  | zero => exact hstate
  | succ steps ih =>
    rw [declareAll]
    split
    · exact hstate
    · exact ih (declare_all hQ h hstate)

/-- The children of the root have every property that declarations build. -/
theorem root_children (hQ : Compositional Q)
    (h : ∀ fuel, Closed (.upTo fuel) 0 (Production.Builds Q)) (chars : List Char) :
    ∀ child ∈ (parse chars none).root.children, Q child := by
  have hempty : (initial chars).All Q := fun node hmem => by cases hmem
  have hfinal : (final chars).All Q :=
    (declareAll_all hQ (h _) _ hempty).flush hQ.incidental
  rw [parse_none_root]
  exact fun child hchild => hfinal child (List.mem_reverse.mp hchild)

end Parse

end Azsl
