/-
Azsl.Proofs.Parse.Origin — the declaration that a node of a file was parsed from.

Every node right below the root that closes itself and has no error was built by one run of the
grammar, from a point where the text may be cut. The stretch of text that the run took is cut
the same way whatever stands around it, so the run can be repeated wherever the stretch stands.
-/
import Azsl.Proofs.Parse.Lossless
import Azsl.Proofs.Parse.Points

namespace Azsl

open ParseState

/-! ## Declarations on their own -/

/-- A state with older nodes below those that are built. -/
def ParseState.onto (older : List Node) (state : ParseState) : ParseState :=
  { state with built := state.built ++ older }

theorem ParseState.flush_opened_flush (state : ParseState) :
    state.flush.opened.flush = state.flush.opened := by
  cases hrest : state.rest with
  | nil =>
    have hopened : state.flush.opened.rest = [] := by simp [hrest, Lexeme.bare]
    rw [flush_nil hopened, flush_nil hrest]
    rfl
  | cons first others =>
    rw [flush_cons (flush_opened_rest hrest), flush_cons hrest]
    rfl

theorem ParseState.opened_opened (state : ParseState) : state.opened.opened = state.opened := rfl

/-- A production does not depend on what is built, and makes one node. -/
structure Production.Rooted (body : Production) : Prop where
  apart : ∀ state, body state = (body state.flush.opened).map (onto state.flush.built)
  single : ∀ {state last : ParseState}, state.rest ≠ [] → body state.flush.opened = .ok last →
    ∃ node, last.built = [node]

namespace Production.Rooted

variable {first second : Production}

theorem node (kind : NodeKind) (body : Production) : Rooted (.node kind body) where
  apart state := by
    rw [node_apply, node_apply, flush_opened_flush, opened_opened]
    cases body state.flush.opened with
    | error stop => rfl
    | ok inner => rfl
  single _ hrun := by
    obtain ⟨inner, -, rfl⟩ := node_eq_ok.mp hrun
    rw [flush_opened_flush]
    exact ⟨_, rfl⟩

theorem bump : Rooted .bump where
  apart state := by
    show Except.ok state.bump = .ok _
    cases hrest : state.rest with
    | nil =>
      have hflush : state.flush.opened.rest = [] := by simp [hrest, Lexeme.bare]
      rw [bump_nil hrest, bump_nil hflush, flush_opened_flush]
      rfl
    | cons first others =>
      rw [bump_cons hrest, bump_cons (flush_opened_rest hrest), flush_cons hrest]
      rfl
  single {state last} hne hrun := by
    obtain rfl := Except.ok.inj hrun
    cases hrest : state.rest with
    | nil => exact absurd hrest hne
    | cons first others =>
      rw [bump_cons (flush_opened_rest hrest)]
      exact ⟨_, rfl⟩

theorem ifAhead {look : List Lexeme → Bool} (hlook : ∀ input, look (Lexeme.bare input) = look input)
    (hfirst : Rooted first) (hsecond : Rooted second) : Rooted (.ifAhead look first second) where
  apart state := by
    simp only [Production.ifAhead, opened_rest, flush_rest, hlook]
    split
    · exact hfirst.apart state
    · exact hsecond.apart state
  single {state last} hne hrun := by
    simp only [Production.ifAhead] at hrun
    split at hrun
    · exact hfirst.single hne hrun
    · exact hsecond.single hne hrun

theorem choose {α : Type} {key : List Lexeme → α} {select : α → Production}
    (hkey : ∀ input, key (Lexeme.bare input) = key input) (h : ∀ value, Rooted (select value)) :
    Rooted (.choose fun rest => select (key rest)) where
  apart state := by
    simp only [Production.choose, opened_rest, flush_rest, hkey]
    exact (h _).apart state
  single hne hrun := (h _).single hne hrun

theorem orElse (hfirst : Rooted first) (hsecond : Rooted second) :
    Rooted (.orElse first second) where
  apart state := by
    simp only [Production.orElse, hfirst.apart state, hsecond.apart state]
    cases first state.flush.opened with
    | error stop => cases stop <;> rfl
    | ok last => rfl
  single {state last} hne hrun := by
    simp only [Production.orElse] at hrun
    split at hrun
    · exact hsecond.single hne hrun
    · exact hfirst.single hne hrun

theorem inScope {kind : NodeKind} {body : Production} :
    Rooted (.inScope (first >=> Production.enclose kind body)) where
  apart state := by
    rw [inScope_apply, inScope_apply, flush_opened_flush, opened_opened]
    cases (first >=> Production.enclose kind body) state.flush.opened with
    | error stop => simp [Except.map]
    | ok inner => simp [Except.map, onto]
  single {state last} _ hrun := by
    obtain ⟨inner, hinner, rfl⟩ := inScope_eq_ok.mp hrun
    obtain ⟨between, -, henclose⟩ := seq_eq_ok.mp hinner
    obtain ⟨last, -, rfl⟩ := enclose_eq_ok.mp henclose
    rw [flush_opened_flush]
    exact ⟨_, rfl⟩

theorem topLevelDeclaration (grammar : Grammar) :
    Rooted (Production.topLevelDeclaration grammar 0) := by
  have hvariables : Rooted (variableStatement grammar 0) := node _ _
  have hfunction : Rooted (attributedFunction grammar 0) := by
    rw [attributedFunction_eq]
    exact orElse inScope inScope
  refine ifAhead (fun input => by rw [Lookahead.kind?, Lookahead.token?_bare]; rfl) (node _ _) <|
    ifAhead (fun input => Lookahead.isAt_bare input 0 _) bump <|
    ifAhead (Steady.isAny _ : Steady Unknown _).bare (node _ _) <|
    ifAhead (Steady.isAny _ : Steady Unknown _).bare (node _ _) <|
    choose (Steady.keyword : Steady Unknown _).bare fun word => ?_
  unfold declarationOf
  split_ifs
  · exact node _ _
  · exact node _ _
  · exact orElse (node _ _) hvariables
  · exact orElse hfunction
      (ifAhead (Twin.isAttributeSequence : Steady Unknown _).bare (node _ _) hvariables)

end Production.Rooted

/-! ## Where a declaration comes from -/

namespace Parse

/-- A node was built by one run of the grammar from a point of a text. -/
def Origin (chars : List Char) (node : Node) : Prop :=
  ∃ past state last, Point chars past state ∧ state.rest ≠ [] ∧
    state.rest.length ≤ (initial chars).rest.length ∧
    Production.topLevelDeclaration (.forTokens (initial chars).rest.length) 0 state.flush.opened
      = .ok last ∧ last.built = [node]

/-- Every node that may be copied later has an origin. -/
def Known (chars : List Char) (nodes : List Node) : Prop :=
  ∀ node ∈ nodes, node.hasError = false → node.kind.isSelfDelimiting = true → Origin chars node

theorem isSelfDelimiting_triviaNode (token : Token) :
    (triviaNode token).kind.isSelfDelimiting = false := by
  show NodeKind.isSelfDelimiting (if token.kind = .comment then _ else _) = false
  split <;> rfl

theorem Known.flush {chars : List Char} {state : ParseState} (h : Known chars state.built) :
    Known chars state.flush.built := by
  have htrivia : ∀ tokens : List Token,
      Known chars ((tokens.map triviaNode).reverse ++ state.built) := by
    intro tokens node hmem herror hkind
    rcases List.mem_append.mp hmem with hmem | hmem
    · obtain ⟨token, -, rfl⟩ := List.mem_map.mp (List.mem_reverse.mp hmem)
      rw [isSelfDelimiting_triviaNode] at hkind
      cases hkind
    · exact h node hmem herror hkind
  cases hrest : state.rest with
  | nil =>
    rw [flush_nil hrest]
    exact htrivia _
  | cons first others =>
    rw [flush_cons hrest]
    exact htrivia _

/-- Passing over input builds an error. -/
theorem Known.recovery {chars : List Char} {state : ParseState} (h : Known chars state.built)
    (mode : Recovery) : Known chars (mode.run state).built := by
  intro node hmem herror hkind
  rcases List.mem_cons.mp hmem with rfl | hmem
  · rw [hasError_ofChildren] at herror
    cases herror
  · exact h.flush node hmem herror hkind

theorem Known.declare {chars : List Char} {past : List Token} {state : ParseState}
    (h : Known chars state.built) (hpoint : Point chars past state) (hne : state.rest ≠ [])
    (henough : state.rest.length ≤ (initial chars).rest.length) :
    Known chars (declare (.forTokens (initial chars).rest.length) state).built := by
  have hrooted := Production.Rooted.topLevelDeclaration
    (.forTokens (initial chars).rest.length)
  unfold Parse.declare
  rw [hrooted.apart state]
  cases hrun : Production.topLevelDeclaration (.forTokens (initial chars).rest.length) 0
      state.flush.opened with
  | error stop => exact h.recovery _
  | ok last =>
    obtain ⟨node, hbuilt⟩ := hrooted.single hne hrun
    have hlast : Known chars (last.onto state.flush.built).built := by
      rw [onto, hbuilt]
      intro other hmem herror hkind
      rcases List.mem_cons.mp hmem with rfl | hmem
      · exact ⟨past, state, last, hpoint, hne, henough, hrun, hbuilt⟩
      · exact h.flush other hmem herror hkind
    simp only [Except.map]
    split
    · exact hlast.recovery _
    · exact hlast

theorem Known.declareAll {chars : List Char} {fuel : Nat} {past : List Token}
    {state : ParseState} (h : Known chars state.built) (hpoint : Point chars past state)
    (henough : state.rest.length ≤ (initial chars).rest.length) :
    Known chars (declareAll (.forTokens (initial chars).rest.length) fuel state).built := by
  induction fuel generalizing past state with
  | zero => exact h
  | succ fuel ih =>
    rw [Parse.declareAll]
    split
    · exact h
    · rename_i hend
      have hne : state.rest ≠ [] := by simpa [ParseState.atEnd] using hend
      obtain ⟨taken, hnext⟩ := hpoint.declare (Grammar.fuelFor (initial chars).rest.length) hne
      have hlt := declare_length_lt (Grammar.fuelFor (initial chars).rest.length) hne
      exact ih (h.declare hpoint hne henough) hnext (Nat.le_trans (Nat.le_of_lt hlt) henough)

/-- Every declaration of a file that closes itself and has no error has an origin. -/
theorem known_children (chars : List Char) : Known chars (parse chars none).root.children := by
  have hnone : Known chars (initial chars).built := fun node hmem => by cases hmem
  have hfinal : Known chars (final chars).built :=
    (hnone.declareAll (.initial chars) (Nat.le_refl _)).flush
  intro node hmem herror hkind
  rw [parse_none_root] at hmem
  exact hfinal node (List.mem_reverse.mp hmem) herror hkind

end Parse

end Azsl
