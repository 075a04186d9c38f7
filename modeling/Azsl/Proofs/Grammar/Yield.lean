/-
Azsl.Proofs.Grammar.Yield — the tokens that nodes were made of.

Whatever a production builds is made of the tokens it takes, in their order: a leaf of one token or
of several, a node around others, an error over tokens that were passed over. Where the input may
be anything, `Yields` says no more than that; where trivia is trivia and the lexer made the tokens,
it says too that only errors and includes have foreign tokens in them.
-/
import Azsl.Proofs.Grammar.Cover
import Azsl.Proofs.Grammar.Lockstep

namespace Azsl

/-! ## Rows of nodes -/

/-- A token is not foreign, as far as that is asked for. -/
def Token.Admitted (native : Bool) (token : Token) : Prop :=
  native = true → token.Legible → token.isForeign = false

theorem Token.Admitted.of_kind {native : Bool} {token : Token}
    (h : token.kind ≠ .unknown ∧ token.kind ≠ .includeDirective) : token.Admitted native :=
  fun _ _ => token.isForeign_of_kind h

/-- What passing over a token makes of it: trivia as elsewhere, a leaf otherwise. -/
def Token.PassedAs (native : Bool) (token : Token) (node : Node) : Prop :=
  node = ParseState.triviaNode token ∧ token.Admitted native ∨
    node = .leaf .token token.start token.stop

/-- Every member of a row has a partner in the other row. -/
theorem exists_partner {α β : Type} {R : α → β → Prop} {row : List α} {others : List β}
    (h : row.Forall₂ R others) {first : α} (hmem : first ∈ row) :
    ∃ second ∈ others, R first second := by
  induction h with
  | nil => cases hmem
  | cons hhead _ ih =>
    rcases List.mem_cons.mp hmem with rfl | hmem
    · exact ⟨_, List.mem_cons_self, hhead⟩
    · obtain ⟨second, hsecond, hpartner⟩ := ih hmem
      exact ⟨second, List.mem_cons_of_mem _ hsecond, hpartner⟩

/-- Nodes in a row were made of tokens in a row. -/
inductive Yields (native : Bool) (textEnd : Location) : List Node → List Token → Prop
  | nil : Yields native textEnd [] []
  | trivia {token nodes tokens} : token.Admitted native → Yields native textEnd nodes tokens →
      Yields native textEnd (ParseState.triviaNode token :: nodes) (token :: tokens)
  | leaf {kind first more last nodes tokens} :
      kind.isLeaf = true → (first :: more).getLast? = some last →
      (∀ token ∈ first :: more, token.Admitted native) → Yields native textEnd nodes tokens →
      Yields native textEnd (.leaf kind first.start last.stop :: nodes) (first :: more ++ tokens)
  | string {token nodes tokens} :
      token.kind = .stringLiteral → Yields native textEnd nodes tokens →
      Yields native textEnd (.ofChildren .stringLiteral (Production.stringParts token) :: nodes)
        (token :: tokens)
  | composite {kind children inner nodes tokens} :
      kind.isComposite = true → children ≠ [] → Yields native textEnd children inner →
      Yields native textEnd nodes tokens →
      Yields native textEnd (.ofChildren kind children :: nodes) (inner ++ tokens)
  | error {children passed nodes tokens} :
      passed.Forall₂ (Token.PassedAs native) children → Yields native textEnd nodes tokens →
      Yields native textEnd (.ofChildren .error children :: nodes) (passed ++ tokens)
  | missing {nodes tokens} : Yields native textEnd nodes tokens →
      Yields native textEnd (.leaf .error textEnd textEnd :: nodes) tokens

namespace Yields

variable {native : Bool} {textEnd : Location} {nodes others : List Node} {tokens more : List Token}

theorem append (h : Yields native textEnd nodes tokens) (h' : Yields native textEnd others more) :
    Yields native textEnd (nodes ++ others) (tokens ++ more) := by
  induction h with
  | nil => exact h'
  | trivia hadmitted _ ih => exact .trivia hadmitted ih
  | leaf hkind hlast hadmitted _ ih =>
    rw [List.cons_append, List.append_assoc]
    exact .leaf hkind hlast hadmitted ih
  | string hkind _ ih => exact .string hkind ih
  | composite hkind hne hinner _ _ ih =>
    rw [List.cons_append, List.append_assoc]
    exact .composite hkind hne hinner ih
  | error hover _ ih =>
    rw [List.cons_append, List.append_assoc]
    exact .error hover ih
  | missing _ ih => exact .missing ih

theorem ofTrivia (h : ∀ token ∈ tokens, token.Admitted native) :
    Yields native textEnd (tokens.map ParseState.triviaNode) tokens := by
  induction tokens with
  | nil => exact .nil
  | cons token rest ih =>
    exact .trivia (h token List.mem_cons_self) (ih fun other hmem => h other (.tail _ hmem))

/-- A leaf on its own. -/
theorem ofLeaf {kind : NodeKind} {first last : Token} {more : List Token}
    (hkind : kind.isLeaf = true) (hlast : (first :: more).getLast? = some last)
    (hadmitted : ∀ token ∈ first :: more, token.Admitted native) :
    Yields native textEnd [.leaf kind first.start last.stop] (first :: more) := by
  have h : Yields native textEnd [.leaf kind first.start last.stop] (first :: more ++ []) :=
    .leaf hkind hlast hadmitted .nil
  rwa [List.append_nil] at h

/-- A node around others on its own. -/
theorem ofComposite {kind : NodeKind} (hkind : kind.isComposite = true) (hne : nodes ≠ [])
    (h : Yields native textEnd nodes tokens) :
    Yields native textEnd [.ofChildren kind nodes] tokens := by
  have hnode : Yields native textEnd [.ofChildren kind nodes] (tokens ++ []) :=
    .composite hkind hne h .nil
  rwa [List.append_nil] at hnode

/-- An error on its own. -/
theorem ofError (h : tokens.Forall₂ (Token.PassedAs native) nodes) :
    Yields native textEnd [.ofChildren .error nodes] tokens := by
  have herror : Yields native textEnd [.ofChildren .error nodes] (tokens ++ []) := .error h .nil
  rwa [List.append_nil] at herror

end Yields

/-! ## States -/

namespace ParseState

variable {native : Bool} {past : List Token}

/-- What stands between the tokens that are left. -/
def trivia (state : ParseState) : List Token :=
  state.rest.flatMap (·.leading) ++ state.trailing

/-- What was built since the innermost node was opened is made of some tokens, and no foreign token
stands between those that are left. -/
structure Made (native : Bool) (past : List Token) (state : ParseState) : Prop where
  built : Yields native state.textEnd state.built.reverse past
  trivia : ∀ token ∈ state.trivia, token.Admitted native

/-- One state comes from another by making nodes of the tokens in between. -/
def Makes (native : Bool) (past : List Token) (state last : ParseState) : Prop :=
  ∃ taken, state.stream = taken ++ last.stream ∧ last.Made native (past ++ taken) ∧
    last.textEnd = state.textEnd

namespace Makes

variable {state first second third : ParseState}

theorem refl (h : state.Made native past) : Makes native past state state :=
  ⟨[], rfl, by rwa [List.append_nil], rfl⟩

theorem trans (h : Makes native past first second)
    (h' : ∀ past, second.Made native past → Makes native past second third) :
    Makes native past first third := by
  obtain ⟨taken, hstream, hmade, hend⟩ := h
  obtain ⟨taken', hstream', hmade', hend'⟩ := h' _ hmade
  refine ⟨taken ++ taken', ?_, ?_, hend'.trans hend⟩
  · rw [hstream, hstream', List.append_assoc]
  · rwa [← List.append_assoc]

/-- Nodes are added that are made of the tokens in between. -/
theorem extend {last : ParseState} {nodes : List Node} {taken : List Token}
    (h : state.Made native past) (hstream : state.stream = taken ++ last.stream)
    (hbuilt : last.built.reverse = state.built.reverse ++ nodes)
    (hnodes : Yields native state.textEnd nodes taken)
    (htrivia : ∀ token ∈ last.trivia, token ∈ state.trivia) (hend : last.textEnd = state.textEnd) :
    Makes native past state last := by
  refine ⟨taken, hstream, ⟨?_, fun token hmem => h.trivia token (htrivia token hmem)⟩, hend⟩
  rw [hbuilt, hend]
  exact h.built.append hnodes

end Makes

/-! ## Steps -/

variable {state last : ParseState}

theorem trivia_cons {first : Lexeme} {others : List Lexeme} (h : state.rest = first :: others) :
    state.trivia = first.leading ++ (others.flatMap (·.leading) ++ state.trailing) := by
  simp [trivia, h]

theorem trivia_flush_subset (state : ParseState) :
    ∀ token ∈ state.flush.trivia, token ∈ state.trivia := by
  intro token hmem
  cases hrest : state.rest with
  | nil => simp [flush_nil hrest, trivia, hrest] at hmem
  | cons first others =>
    rw [flush_cons hrest] at hmem
    rw [trivia_cons hrest]
    exact List.mem_append_right _ (by simpa [trivia] using hmem)

/-- The trivia before the next token. -/
theorem exists_flush (state : ParseState) :
    ∃ leading, state.stream = leading ++ state.flush.stream ∧
      state.flush.built.reverse = state.built.reverse ++ leading.map triviaNode ∧
      ∀ token ∈ leading, token ∈ state.trivia := by
  cases hrest : state.rest with
  | nil =>
    rw [flush_nil hrest]
    exact ⟨state.trailing, by simp [stream, hrest], by simp, by simp [trivia, hrest]⟩
  | cons first others =>
    rw [flush_cons hrest]
    refine ⟨first.leading, by simp [stream, hrest], by simp, fun token hmem => ?_⟩
    rw [trivia_cons hrest]
    exact List.mem_append_left _ hmem

theorem makes_flush (h : state.Made native past) : Makes native past state state.flush := by
  obtain ⟨leading, hstream, hbuilt, hleading⟩ := exists_flush state
  exact .extend h hstream hbuilt
    (.ofTrivia fun token hmem => h.trivia token (hleading token hmem)) (trivia_flush_subset state)
    (flush_textEnd state)

/-- Lexemes end on the token of the last one. -/
theorem getLast?_flatMap {lexemes : List Lexeme} (hne : lexemes ≠ []) :
    (lexemes.flatMap fun lexeme => lexeme.leading ++ [lexeme.token]).getLast?
      = some (lexemes.getLast hne).token := by
  conv_lhs => rw [← List.dropLast_append_getLast hne]
  simp

/-- Taking a group of tokens makes a leaf of them. -/
theorem makes_bumpJoined {count : Nat} {kind : NodeKind} (hkind : kind.isLeaf = true)
    (h : state.Made native past) {first : Lexeme} {more others : List Lexeme}
    (hrest : state.rest = first :: more ++ others) (hcount : more.length = count)
    (hadmitted : ∀ lexeme ∈ first :: more, lexeme.token.Admitted native) :
    Makes native past state (state.bumpJoined count kind) := by
  refine (makes_flush h).trans fun past' h' => ?_
  have hflush : state.flush.rest = { first with leading := [] } :: more ++ others := by
    rw [flush_rest, hrest]
    rfl
  rw [← bumpJoined_flush, bumpJoined_append kind hflush hcount]
  generalize hbare : ({ first with leading := [] } : Lexeme) = bare at hflush ⊢
  have htoken : bare.token = first.token := hbare ▸ rfl
  have hnodes : Yields native state.flush.textEnd
      [.leaf kind bare.token.start ((bare :: more).getLast (by simp)).token.stop]
      (bare.token :: more.flatMap fun lexeme => lexeme.leading ++ [lexeme.token]) := by
    have hlast := getLast?_flatMap (List.cons_ne_nil bare more)
    rw [List.flatMap_cons, ← hbare, List.nil_append, List.singleton_append, hbare] at hlast
    refine .ofLeaf hkind hlast fun token hmem => ?_
    rcases List.mem_cons.mp hmem with rfl | hmem
    · exact htoken ▸ hadmitted first List.mem_cons_self
    obtain ⟨lexeme, hlexeme, htaken⟩ := List.mem_flatMap.mp hmem
    rcases List.mem_append.mp htaken with htaken | htaken
    · refine h'.trivia token (List.mem_append_left _ (List.mem_flatMap.mpr ⟨lexeme, ?_, htaken⟩))
      rw [hflush]
      exact List.mem_append_left _ (List.mem_cons_of_mem _ hlexeme)
    · rw [List.mem_singleton.mp htaken]
      exact hadmitted lexeme (List.mem_cons_of_mem _ hlexeme)
  refine .extend h' ?_ (by simp [← hbare]) hnodes (fun token hmem => ?_) rfl
  · rw [stream, hflush, List.flatMap_append, List.flatMap_cons, ← hbare]
    simp [stream]
  · rw [trivia, hflush, List.flatMap_append, List.append_assoc]
    exact List.mem_append_right _ hmem

/-- Taking a keyword or punctuation. -/
theorem makes_bumpAt (h : state.Made native past) {text : String} (hsees : state.sees text = true) :
    Makes native past state state.bump := by
  obtain ⟨first, others, hrest, his⟩ := sees_eq_true.mp hsees
  have hsplit : state.rest = first :: [] ++ others := hrest
  refine makes_bumpJoined rfl h hsplit rfl fun lexeme hmem => ?_
  rw [List.mem_singleton.mp hmem]
  exact fun _ _ => Token.isForeign_of_is his

theorem makes_string (h : state.Made native past)
    (hrun : Production.stringLiteral state = .ok last) : Makes native past state last := by
  obtain ⟨first, others, hrest, hkind, rfl⟩ := Production.stringLiteral_eq_ok.mp hrun
  refine (makes_flush h).trans fun past' h' => ?_
  have hflush : state.flush.rest = { first with leading := [] } :: others := by
    rw [flush_rest, hrest]
    rfl
  refine .extend h' (stream_cons hflush) (by simp [close]) (.string hkind .nil)
    (fun token hmem => ?_) rfl
  rw [trivia_cons hflush]
  exact List.mem_append_right _ hmem

theorem makes_missing (h : state.Made native past) : Makes native past state state.missing := by
  refine (makes_flush h).trans fun past' h' => ?_
  have hstream : state.flush.stream = [] ++ state.missing.stream := rfl
  exact .extend h' hstream (by simp [missing]) (.missing .nil) (fun _ hmem => hmem) rfl

/-! ## Nodes around others -/

theorem Made.opened (h : state.Made native past) : state.opened.Made native [] :=
  ⟨.nil, h.trivia⟩

/-- What is made in a row of its own is put behind what was there before. -/
theorem Makes.rejoin {inner outer : ParseState}
    (hinner : Makes native [] state.opened inner)
    (hjoin : ∀ {taken}, Yields native state.textEnd inner.built.reverse taken →
      Yields native state.textEnd outer.built.reverse (past ++ taken))
    (hrest : outer.rest = inner.rest) (htrailing : outer.trailing = inner.trailing)
    (hend : outer.textEnd = inner.textEnd) : Makes native past state outer := by
  obtain ⟨taken, hstream, ⟨hrow, htrivia⟩, htextEnd⟩ := hinner
  refine ⟨taken, ?_, ⟨?_, fun token hmem => htrivia token ?_⟩, hend.trans htextEnd⟩
  · rw [show outer.stream = inner.stream by rw [stream, stream, hrest, htrailing]]
    exact hstream
  · rw [htextEnd] at hrow
    rw [hend, htextEnd]
    exact hjoin hrow
  · rwa [ParseState.trivia, ← hrest, ← htrailing]

theorem makes_close {inner : ParseState} {kind : NodeKind} (hkind : kind.isComposite = true)
    (h : state.Made native past) (hinner : Makes native [] state.opened inner)
    (hne : inner.built ≠ []) : Makes native past state (state.close kind inner) := by
  refine hinner.rejoin (fun hrow => ?_) rfl rfl rfl
  rw [close, List.reverse_cons]
  exact h.built.append (.ofComposite hkind (by simpa using hne) hrow)

theorem makes_enclosed {inner : ParseState} {kind : NodeKind} (hkind : kind.isComposite = true)
    (hinner : Makes native past state inner) (hne : inner.built ≠ []) :
    Makes native past state (inner.enclosed kind) := by
  obtain ⟨taken, hstream, ⟨hrow, htrivia⟩, hend⟩ := hinner
  refine ⟨taken, hstream, ⟨?_, htrivia⟩, hend⟩
  exact .ofComposite hkind (by simpa using hne) hrow

/-! ## Passing over input -/

/-- Some more tokens are passed over. -/
def Passes (native : Bool) (state last : ParseState) : Prop :=
  ∃ passed nodes, state.stream = passed ++ last.stream ∧
    last.built.reverse = state.built.reverse ++ nodes ∧
    passed.Forall₂ (Token.PassedAs native) nodes ∧
    (∀ token ∈ last.trivia, token ∈ state.trivia) ∧ last.textEnd = state.textEnd

theorem Passes.trans {first second third : ParseState} (h : Passes native first second)
    (h' : Passes native second third) : Passes native first third := by
  obtain ⟨passed, nodes, hstream, hbuilt, hpassed, htrivia, hend⟩ := h
  obtain ⟨passed', nodes', hstream', hbuilt', hpassed', htrivia', hend'⟩ := h'
  refine ⟨passed ++ passed', nodes ++ nodes', ?_, ?_, List.rel_append hpassed hpassed',
    fun token hmem => htrivia token (htrivia' token hmem), hend'.trans hend⟩
  · rw [hstream, hstream', List.append_assoc]
  · rw [hbuilt', hbuilt, List.append_assoc]

theorem passes_flush (h : ∀ token ∈ state.trivia, token.Admitted native) :
    Passes native state state.flush := by
  obtain ⟨leading, hstream, hbuilt, hleading⟩ := exists_flush state
  refine ⟨leading, leading.map triviaNode, hstream, hbuilt, ?_, trivia_flush_subset state,
    flush_textEnd state⟩
  rw [List.forall₂_map_right_iff, List.forall₂_same]
  exact fun token hmem => .inl ⟨rfl, h token (hleading token hmem)⟩

theorem passes_bump (h : ∀ token ∈ state.trivia, token.Admitted native) :
    Passes native state state.bump := by
  cases hrest : state.rest with
  | nil =>
    rw [bump_nil hrest]
    exact passes_flush h
  | cons first others =>
    refine (passes_flush h).trans ?_
    have hflush : state.flush.rest = { first with leading := [] } :: others := by
      rw [flush_rest, hrest]
      rfl
    have hbump : state.bump = state.flush.bump := (bumpJoined_flush state 0 .token).symm
    rw [hbump, bump_cons hflush]
    refine ⟨[first.token], [.leaf .token first.token.start first.token.stop], stream_cons hflush,
      by simp, .cons (.inr rfl) .nil, fun token hmem => ?_, rfl⟩
    rw [trivia_cons hflush]
    exact List.mem_append_right _ hmem

theorem passes_bumpMany (count : Nat) (h : ∀ token ∈ state.trivia, token.Admitted native) :
    Passes native state (bumpMany count state) := by
  induction count generalizing state with
  | zero => exact ⟨[], [], rfl, by simp [bumpMany], .nil, fun _ hmem => hmem, rfl⟩
  | succ count ih =>
    have hbump := passes_bump h
    refine hbump.trans (ih fun token hmem => h token ?_)
    obtain ⟨_, _, _, _, _, htrivia, _⟩ := hbump
    exact htrivia token hmem

theorem makes_recovery (recovery : Recovery) (h : state.Made native past) :
    Makes native past state (recovery.run state) := by
  refine (makes_flush h).trans fun past' h' => ?_
  have hpasses : Passes native state.flush.opened
      (bumpMany (recovery.extent state.flush.rest) state.flush.opened) :=
    passes_bumpMany _ h'.trivia
  obtain ⟨passed, nodes, hstream, hbuilt, hpassed, htrivia, hend⟩ := hpasses
  rw [opened_built, List.reverse_nil, List.nil_append] at hbuilt
  refine .extend h' hstream ?_ (.ofError hpassed) htrivia hend
  rw [Recovery.run, close, List.reverse_cons, ← hbuilt]

end ParseState

/-! ## Combinations -/

/-- Every nonterminal makes nodes of the tokens it takes. -/
def Grammar.Making (grammar : Grammar) (depth : Nat) : Prop :=
  ∀ (rule : Rule) {native : Bool} {state last : ParseState} {past : List Token},
    state.Made native past → grammar rule depth state = .ok last →
    ParseState.Makes native past state last

namespace Twin

open ParseState

variable {grammar grammar' : Grammar} {depth : Nat} {mode : Mode} {known : List Lexeme → Prop}
  {takes : Bool} {pending next : List Closer} {body body' : Production} {native : Bool}
  {past : List Token}

/-- A combination makes nodes of the tokens it takes. In a declaration none of them is foreign. -/
theorem makes (h : Twin grammar grammar' depth mode known takes pending next body body')
    (hadvances : grammar.Advances depth) (hbuilds : grammar.Builds depth)
    (hcalls : grammar.Making depth) (hmode : native = true → mode ≠ .loose)
    {state last : ParseState} (hmade : state.Made native past)
    (hknown : known (Lexeme.bare state.rest)) (hrun : body state = .ok last) :
    Makes native past state last := by
  induction h generalizing state last past with
  | skip => exact Except.ok.inj hrun ▸ .refl hmade
  | fail => cases hrun
  | take hkind htakes =>
    obtain ⟨first, more, others, hrest, hcount, htaken⟩ := exists_taken (htakes.enough hknown)
    obtain rfl := Except.ok.inj hrun
    refine makes_bumpJoined hkind.leaf hmade hrest hcount fun lexeme hmem hnative => ?_
    have hall := htakes.native (hmode hnative) hknown
    rw [htaken, List.forall_mem_cons] at hall
    rcases List.mem_cons.mp hmem with rfl | hmem
    · exact hall.1
    · exact hall.2 lexeme hmem
  | string => exact makes_string hmade hrun
  | @choose _ _ _ _ _ select _ hselect _ _ ih =>
    have hchosen : select state.rest state = .ok last := hrun
    rw [← hselect.bare] at hchosen
    exact ih _ hknown hmode hmade rfl hchosen
  | orElse _ _ _ ih₁ ih₂ =>
    rcases Production.orElse_eq_ok.mp hrun with hfirst | ⟨-, hsecond⟩
    · exact ih₁ hmode hmade hknown hfirst
    · exact ih₂ hmode hmade hknown hsecond
  | seq _ _ _ ih₁ ih₂ =>
    obtain ⟨between, hfirst, hsecond⟩ := Production.seq_eq_ok.mp hrun
    exact (ih₁ hmode hmade hknown hfirst).trans fun _ hmade' => ih₂ hmode hmade' trivial hsecond
  | @node _ _ _ _ kind body _ hkind htwin ih =>
    obtain ⟨inner, hinner, rfl⟩ := Production.node_eq_ok.mp hrun
    refine (makes_flush hmade).trans fun past' hmade' => ?_
    have hopened : _ := ih hmode hmade'.opened (by simpa using hknown) hinner
    have hne := htwin.built_ne_nil hadvances hbuilds (by simpa using hknown) hinner
    exact makes_close hkind hmade' hopened hne
  | inScope _ ih =>
    obtain ⟨inner, hinner, rfl⟩ := Production.inScope_eq_ok.mp hrun
    refine (makes_flush hmade).trans fun past' hmade' => ?_
    have hopened := ih hmode hmade'.opened (by simpa using hknown) hinner
    refine hopened.rejoin (fun hrow => ?_) rfl rfl rfl
    simpa using hmade'.built.append hrow
  | @enclose _ _ _ _ kind body _ hkind htwin ih =>
    obtain ⟨inner, hinner, rfl⟩ := Production.enclose_eq_ok.mp hrun
    exact makes_enclosed hkind (ih hmode hmade hknown hinner)
      (htwin.built_ne_nil hadvances hbuilds hknown hinner)
  | whileAhead hlook _ _ ih =>
    exact Production.iterate_whileTurn_keeps (I := Makes native past state)
      (fun hl hbody hmakes => hmakes.trans fun _ hmade' =>
        ih hmode hmade' ((hlook.bare _).trans hl) hbody) hrun (.refl hmade)
  | braced _ ih =>
    obtain ⟨between, hmakes, hlast⟩ := Production.braced_keeps (I := Makes native past state)
      (fun hs hr hi hmakes => hmakes.trans fun _ hmade' =>
        ih (fun _ => by decide) hmade' (Lookahead.item_bare.mpr ⟨hr, hs⟩) hi) hrun
      fun hopen => makes_bumpAt hmade hopen
    refine hmakes.trans fun _ hmade' => ?_
    rcases hlast with ⟨hsees, rfl⟩ | ⟨-, rfl⟩
    · exact makes_bumpAt hmade' hsees
    · exact makes_missing hmade'
  | recover => exact Except.ok.inj hrun ▸ makes_recovery _ hmade
  | orRecover _ _ ih =>
    rcases Production.orRecover_eq_ok.mp hrun with ⟨-, rfl⟩ | ⟨next, hnext, -, rfl⟩ | ⟨htaken, -⟩
    · exact makes_recovery _ hmade
    · exact (ih hmode hmade hknown hnext).trans fun _ hmade' => makes_recovery _ hmade'
    · exact ih hmode hmade hknown htaken
  | call rule => exact hcalls rule hmade hrun
  | @weaken mode _ _ _ _ _ _ _ _ _ _ hle hk _ ih =>
    refine ih (fun hnative hloose => ?_) hmade (hk _ hknown) hrun
    subst hloose
    have hmode' := hmode hnative
    revert hle
    cases ‹Mode› <;> simp_all [Mode.le]
  | enter _ hallows ih =>
    refine ih (fun _ hloose => ?_) hmade hknown hrun
    subst hloose
    exact hallows []

end Twin

theorem Rule.mode_ne_loose (rule : Rule) : rule.mode ≠ .loose := by
  cases rule <;> simp [mode]

/-- The grammar makes nodes of the tokens it takes, however many calls inside one another are
allowed. -/
theorem Grammar.upTo_making (fuel depth : Nat) : (upTo fuel).Making depth := by
  induction fuel generalizing depth with
  | zero =>
    intro rule native state last past _ hrun
    cases hrun
  | succ fuel ih =>
    intro rule native state last past hmade hrun
    have hstep : Twin (upTo fuel) (upTo fuel) _ _ Unknown true [] [] _ _ := .step rule depth
    exact hstep.makes (upTo_advances fuel _) (upTo_builds fuel _) (ih _)
      (fun _ => rule.mode_ne_loose) hmade trivial hrun

end Azsl
