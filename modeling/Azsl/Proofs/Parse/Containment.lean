/-
Azsl.Proofs.Parse.Containment — errors keep to the block they stand in.

Every error below a declaration was made by recovery inside braces and stands over the tokens
that recovery passed over. So a brace that closes the block around an error is never part of the
error, unless a round or square bracket is open before it (`parse_errorsContained`). Then it may
be, and what follows the block ends up in it (`closing_brace_lost`).
-/
import Azsl.Proofs.Grammar.Braces
import Azsl.Proofs.Parse.Origin
import Azsl.Proofs.Token.Start

namespace Azsl

/-! ## Errors in trees -/

namespace Node

/-- An error that stands over tokens in a row and closes no braces but its own. -/
def PassesOver (whole : List Token) (node : Node) : Prop :=
  ∃ left first more right last, whole = left ++ (first :: more ++ right) ∧
    (first :: more).getLast? = some last ∧ node.start = first.start ∧ node.stop = last.stop ∧
    Marks.ClosesOwnBraces (Token.marks (first :: more))

/-- Every error of a tree that is not empty closes no braces but its own. -/
def Contained (whole : List Token) (node : Node) : Prop :=
  ∀ below ∈ node.descendants, below.kind = .error → below.children ≠ [] → below.PassesOver whole

variable {whole : List Token}

theorem contained_leaf {node : Node} (h : node.children = []) : node.Contained whole := by
  intro below hmem _ hne
  rw [descendants_eq, h] at hmem
  obtain rfl := List.mem_singleton.mp hmem
  exact absurd h hne

/-- A tree is contained if what is right below it is, and it is no error or contained itself. -/
theorem contained_ofChildren {kind : NodeKind} {children : List Node}
    (hself : kind = .error → (ofChildren kind children).PassesOver whole)
    (h : ∀ child ∈ children, child.Contained whole) :
    (ofChildren kind children).Contained whole := by
  intro below hmem hkind hne
  rw [descendants_eq] at hmem
  rcases List.mem_cons.mp hmem with rfl | hmem
  · exact hself hkind
  · obtain ⟨child, hchild, hbelow⟩ := List.mem_flatMap.mp hmem
    exact h child hchild below hbelow hkind hne

theorem contained_composite {kind : NodeKind} {children : List Node}
    (hkind : kind.isComposite = true) (h : ∀ child ∈ children, child.Contained whole) :
    (ofChildren kind children).Contained whole :=
  contained_ofChildren (by rintro rfl; cases hkind) h

end Node

/-! ## States -/

namespace ParseState

/-- The input that is left ends some tokens, and the errors in what is built are contained. -/
structure Contains (whole : List Token) (state : ParseState) : Prop where
  rest : Lexeme.tokens state.rest <:+ whole
  built : ∀ node ∈ state.built, node.Contained whole

variable {whole : List Token} {state last : ParseState}

/-- Only contained trees are added. -/
theorem Contains.later (h : state.Contains whole) (hfollows : last.Follows state)
    (hbuilt : ∀ node ∈ last.built, node ∈ state.built ∨ node.Contained whole) :
    last.Contains whole :=
  ⟨hfollows.tokens.trans h.rest, fun node hmem => (hbuilt node hmem).elim (h.built node) id⟩

theorem mem_flush {node : Node} (h : node ∈ state.flush.built) :
    node ∈ state.built ∨ node.children = [] :=
  (mem_built_flush h).imp id And.left

theorem mem_built_bumpJoined {count : Nat} {kind : NodeKind} {node : Node}
    (h : node ∈ (state.bumpJoined count kind).built) :
    node ∈ state.built ∨ node.children = [] := by
  unfold bumpJoined at h
  simp only at h
  split at h
  · rcases List.mem_cons.mp h with rfl | h
    · exact .inr rfl
    · exact mem_flush h
  · exact mem_flush h

theorem Contains.flush (h : state.Contains whole) : state.flush.Contains whole :=
  h.later state.flush_follows fun _ hmem => (mem_flush hmem).imp id Node.contained_leaf

theorem Contains.bump (h : state.Contains whole) : state.bump.Contains whole :=
  h.later state.bump_follows fun _ hmem => (mem_built_bumpJoined hmem).imp id Node.contained_leaf

theorem Contains.opened (h : state.Contains whole) : state.opened.Contains whole :=
  ⟨h.rest, fun _ hmem => by cases hmem⟩

theorem Contains.missing (h : state.Contains whole) : state.missing.Contains whole := by
  refine ⟨h.flush.rest, fun node hmem => ?_⟩
  rcases List.mem_cons.mp hmem with rfl | hmem
  · exact Node.contained_leaf rfl
  · exact h.flush.built node hmem

/-- Closing a node around contained trees. -/
theorem Contains.close {outer inner : ParseState} (houter : outer.Contains whole)
    (hinner : inner.Contains whole) {kind : NodeKind}
    (hkind : kind = .error → (Node.ofChildren kind inner.built.reverse).PassesOver whole) :
    (outer.close kind inner).Contains whole := by
  refine ⟨hinner.rest, fun node hmem => ?_⟩
  rcases List.mem_cons.mp hmem with rfl | hmem
  · exact Node.contained_ofChildren hkind fun child hchild =>
      hinner.built child (List.mem_reverse.mp hchild)
  · exact houter.built node hmem

/-- A string has no errors in it. -/
theorem contains_string (h : state.Contains whole) (hfollows : last.Follows state)
    (hrun : Production.stringLiteral state = .ok last) : last.Contains whole := by
  refine h.later hfollows fun node hmem => ?_
  obtain ⟨first, others, -, -, rfl⟩ := Production.stringLiteral_eq_ok.mp hrun
  rcases List.mem_cons.mp hmem with rfl | hmem
  · refine .inr (Node.contained_ofChildren (by simp) fun part hpart => ?_)
    rw [List.reverse_reverse] at hpart
    obtain ⟨_, _, _, rfl | rfl, rfl⟩ := Node.stringParts_eq_leaf hpart
    · exact Node.contained_leaf rfl
    · exact Node.contained_leaf rfl
  · exact (mem_flush hmem).imp id Node.contained_leaf

/-! ## Passing over input -/

/-- The last node built is the leaf of the last token taken. -/
theorem head?_built_bumpMany {count : Nat} {lexeme : Lexeme}
    (h : state.rest[count]? = some lexeme) :
    (bumpMany (count + 1) state).built.head?
      = some (.leaf .token lexeme.token.start lexeme.token.stop) := by
  induction count generalizing state with
  | zero =>
    obtain ⟨others, hrest⟩ : ∃ others, state.rest = lexeme :: others :=
      List.head?_eq_some_iff.mp (by rwa [List.head?_eq_getElem?])
    rw [bumpMany, bumpMany, bump_cons hrest]
    rfl
  | succ count ih =>
    cases hrest : state.rest with
    | nil => simp [hrest] at h
    | cons first others =>
      refine @ih state.bump ?_
      rw [bump_cons hrest]
      simpa [hrest] using h

theorem built_bumpMany (count : Nat) (state : ParseState) :
    ∃ added, (bumpMany count state).built = added ++ state.built := by
  induction count generalizing state with
  | zero => exact ⟨[], rfl⟩
  | succ count ih =>
    obtain ⟨added, hadded⟩ := ih state.bump
    cases hrest : state.rest with
    | nil =>
      rw [bumpMany, hadded, bump_nil hrest, flush_nil hrest]
      exact ⟨_, (List.append_assoc _ _ _).symm⟩
    | cons first others =>
      rw [bumpMany, hadded, bump_cons hrest]
      exact ⟨added ++ .leaf .token first.token.start first.token.stop ::
        (first.leading.map triviaNode).reverse, by simp⟩

/-- A node over some tokens reaches from the first to the last of them. -/
theorem span_bumpMany {first last : Lexeme} {others : List Lexeme} {count : Nat}
    (hbuilt : state.built = []) (hrest : state.rest = first :: others)
    (hleading : first.leading = []) (hlast : state.rest[count]? = some last) (kind : NodeKind) :
    (Node.ofChildren kind (bumpMany (count + 1) state).built.reverse).start = first.token.start ∧
      (Node.ofChildren kind (bumpMany (count + 1) state).built.reverse).stop
        = last.token.stop := by
  constructor
  · obtain ⟨added, hadded⟩ := built_bumpMany count state.bump
    have hhead : (bumpMany (count + 1) state).built.reverse.head?
        = some (.leaf .token first.token.start first.token.stop) := by
      rw [bumpMany, hadded, bump_cons hrest, hbuilt, hleading]
      simp
    show ((_ : Option Node).map Node.start).getD .origin = _
    rw [hhead]
    rfl
  · have hlast' : (bumpMany (count + 1) state).built.reverse.getLast?
        = some (.leaf .token last.token.start last.token.stop) := by
      rw [List.getLast?_reverse]
      exact head?_built_bumpMany hlast
    exact Node.stop_ofChildren kind hlast'

end ParseState

/-- The error of recovery inside braces stands over the tokens that it takes. -/
theorem Recovery.passesOver_block {whole : List Token} {state : ParseState}
    (hrest : Lexeme.tokens state.rest <:+ whole) (hne : state.rest ≠ [])
    (hsees : state.sees "\x7d" = false) :
    (Node.ofChildren .error
      (state.flush.opened.bumpMany (block.extent state.flush.rest)).built.reverse).PassesOver
        whole := by
  have hsees' : Lookahead.isAt state.flush.rest 0 "\x7d" = false := by
    rw [ParseState.flush_rest, Lookahead.isAt_bare]
    exact hsees
  have hle := extent_le_length block state.flush.rest
  have hbraces := closesOwnBraces_extent hsees'
  obtain ⟨first, others, hcons⟩ := List.exists_cons_of_ne_nil hne
  obtain ⟨count, hcount⟩ : ∃ count, block.extent state.flush.rest = count + 1 :=
    Nat.exists_eq_succ_of_ne_zero (extent_pos _ (by simpa using hne)).ne'
  have hflush : state.flush.rest = { first with leading := [] } :: others := by
    rw [ParseState.flush_rest, hcons]
    rfl
  rw [hcount] at hle hbraces ⊢
  obtain ⟨last, hlast⟩ : ∃ last, state.flush.rest[count]? = some last :=
    ⟨_, List.getElem?_eq_getElem (Nat.lt_of_succ_le hle)⟩
  obtain ⟨hstart, hstop⟩ :=
    ParseState.span_bumpMany state.flush.opened_built hflush rfl hlast .error
  rw [hflush] at hbraces hlast
  obtain ⟨left, rfl⟩ := hrest
  refine ⟨left, first.token, (Lexeme.tokens others).take count, (Lexeme.tokens others).drop count,
    last.token, ?_, ?_, hstart, hstop, hbraces⟩
  · rw [hcons, List.cons_append, List.take_append_drop]
    rfl
  · have htake : first.token :: (Lexeme.tokens others).take count
        = (Lexeme.tokens ({ first with leading := [] } :: others)).take (count + 1) := rfl
    rw [htake, List.getLast?_take, if_neg (by simp), Lexeme.tokens, List.getElem?_map]
    simp [hlast]

namespace Recovery

theorem contains_block {whole : List Token} {state : ParseState} (h : state.Contains whole)
    (hne : state.rest ≠ []) (hsees : state.sees "\x7d" = false) :
    (block.run state).Contains whole := by
  refine h.flush.close ?_ fun _ => passesOver_block h.rest hne hsees
  have hopened := h.flush.opened
  generalize block.extent state.flush.rest = count
  generalize state.flush.opened = inner at hopened
  induction count generalizing inner with
  | zero => exact hopened
  | succ count ih => exact ih _ hopened.bump

end Recovery

/-! ## Combinations -/

/-- Every nonterminal builds trees with contained errors only. -/
def Grammar.Containing (grammar : Grammar) (depth : Nat) : Prop :=
  ∀ (rule : Rule) {whole : List Token} {state last : ParseState}, state.Contains whole →
    grammar rule depth state = .ok last → last.Contains whole

namespace Twin

variable {grammar grammar' : Grammar} {depth : Nat} {mode : Mode} {known : List Lexeme → Prop}
  {takes : Bool} {pending next : List Closer} {body body' : Production}

/-- A combination builds trees with contained errors only. -/
theorem contains (h : Twin grammar grammar' depth mode known takes pending next body body')
    (hadvances : grammar.Advances depth) (hcalls : grammar.Containing depth)
    {whole : List Token} {state last : ParseState} (hstate : state.Contains whole)
    (hknown : known (Lexeme.bare state.rest)) (hrun : body state = .ok last) :
    last.Contains whole := by
  induction h generalizing state last with
  | skip => exact Except.ok.inj hrun ▸ hstate
  | fail => simp [Production.fail] at hrun
  | @take mode known pending next count kind hkind htakes =>
    have htwin : Twin grammar grammar' depth mode known true pending next _ _ :=
      .take hkind htakes
    have hfollows := (htwin.advances hadvances hknown hrun).1
    obtain rfl := Except.ok.inj hrun
    exact hstate.later hfollows fun _ hmem =>
      (ParseState.mem_built_bumpJoined hmem).imp id Node.contained_leaf
  | @string mode known pending =>
    have htwin : Twin grammar grammar' depth mode known true pending pending _ _ := .string
    exact ParseState.contains_string hstate (htwin.advances hadvances hknown hrun).1 hrun
  | @choose _ _ _ _ _ select _ hselect _ _ ih =>
    have hchosen : select state.rest state = .ok last := hrun
    rw [← hselect.bare] at hchosen
    exact ih _ hknown hstate rfl hchosen
  | orElse _ _ _ ih₁ ih₂ =>
    rcases Production.orElse_eq_ok.mp hrun with hfirst | ⟨-, hsecond⟩
    · exact ih₁ hstate hknown hfirst
    · exact ih₂ hstate hknown hsecond
  | seq _ _ _ ih₁ ih₂ =>
    obtain ⟨between, hfirst, hsecond⟩ := Production.seq_eq_ok.mp hrun
    exact ih₂ (ih₁ hstate hknown hfirst) trivial hsecond
  | node hkind _ ih =>
    obtain ⟨inner, hinner, rfl⟩ := Production.node_eq_ok.mp hrun
    refine hstate.flush.close (ih hstate.flush.opened (by simpa using hknown) hinner) ?_
    rintro rfl
    cases hkind
  | inScope _ ih =>
    obtain ⟨inner, hinner, rfl⟩ := Production.inScope_eq_ok.mp hrun
    have hcontains := ih hstate.flush.opened (by simpa using hknown) hinner
    refine ⟨hcontains.rest, fun node hmem => ?_⟩
    rcases List.mem_append.mp hmem with hmem | hmem
    · exact hcontains.built node hmem
    · exact hstate.flush.built node hmem
  | enclose hkind _ ih =>
    obtain ⟨inner, hinner, rfl⟩ := Production.enclose_eq_ok.mp hrun
    have hcontains := ih hstate hknown hinner
    refine ⟨hcontains.rest, fun node hmem => ?_⟩
    obtain rfl := List.mem_singleton.mp hmem
    exact Node.contained_composite hkind fun child hchild =>
      hcontains.built child (List.mem_reverse.mp hchild)
  | whileAhead hlook _ _ ih =>
    exact Production.iterate_whileTurn_keeps (I := (·.Contains whole))
      (fun hl hbody hhere => ih hhere ((hlook.bare _).trans hl) hbody) hrun hstate
  | braced _ ih =>
    obtain ⟨between, hbetween, ⟨-, rfl⟩ | ⟨-, rfl⟩⟩ := Production.braced_keeps
      (I := (·.Contains whole))
      (fun hs hr hi hhere => ih hhere (Lookahead.item_bare.mpr ⟨hr, hs⟩) hi) hrun
      fun _ => hstate.bump
    · exact hbetween.bump
    · exact hbetween.missing
  | recover hk =>
    obtain rfl := Except.ok.inj hrun
    obtain ⟨hne, hsees⟩ := Lookahead.item_bare.mp (hk _ hknown)
    exact Recovery.contains_block hstate hne hsees
  | orRecover hk htwin ih =>
    obtain ⟨hne, hsees⟩ := Lookahead.item_bare.mp (hk _ hknown)
    rcases Production.orRecover_eq_ok.mp hrun with
      ⟨-, rfl⟩ | ⟨next, hnext, hsame, rfl⟩ | ⟨htaken, -⟩
    · exact Recovery.contains_block hstate hne hsees
    · -- nothing was taken, so recovery starts at the same token
      have htokens := (htwin.advances hadvances hknown hnext).1.tokens_eq hsame
      have hpos := List.length_pos_iff.mpr hne
      refine Recovery.contains_block (ih hstate hknown hnext)
        (List.length_pos_iff.mp (hsame ▸ hpos)) ?_
      rwa [ParseState.sees_eq_of_tokens htokens]
    · exact ih hstate hknown htaken
  | call rule => exact hcalls rule hstate hrun
  | weaken _ _ hk _ ih => exact ih hstate (hk _ hknown) hrun
  | enter _ _ ih => exact ih hstate hknown hrun

end Twin

theorem Grammar.upTo_containing (fuel depth : Nat) : (upTo fuel).Containing depth := by
  induction fuel generalizing depth with
  | zero =>
    intro rule whole state last _ hrun
    cases hrun
  | succ fuel ih =>
    intro rule whole state last hstate hrun
    have hstep : Twin (upTo fuel) (upTo fuel) _ _ Unknown true [] [] _ _ := .step rule depth
    exact hstep.contains (upTo_advances fuel _) (ih _) hstate trivial hrun

/-! ## Files -/

/-- Every error below a declaration that is not empty closes no braces but its own. -/
def Node.ContainedBelow (whole : List Token) (node : Node) : Prop :=
  ∀ child ∈ node.children, child.Contained whole

theorem Node.Contained.below {whole : List Token} {node : Node} (h : node.Contained whole) :
    node.ContainedBelow whole := by
  intro child hchild below hmem hkind hne
  refine h below ?_ hkind hne
  rw [Node.descendants_eq]
  exact List.mem_cons_of_mem _ (List.mem_flatMap.mpr ⟨child, hchild, hmem⟩)

theorem Node.containedBelow_leaf {whole : List Token} {node : Node} (h : node.children = []) :
    node.ContainedBelow whole :=
  (Node.contained_leaf h).below

namespace Parse

/-- What is left of a file and what is built of it. -/
structure Holds (whole : List Token) (state : ParseState) : Prop where
  rest : Lexeme.tokens state.rest <:+ whole
  built : ∀ node ∈ state.built, node.ContainedBelow whole

variable {whole : List Token} {state : ParseState}

theorem Holds.flush (h : Holds whole state) : Holds whole state.flush :=
  ⟨state.flush_follows.tokens.trans h.rest, fun node hmem =>
    (ParseState.mem_flush hmem).elim (h.built node) Node.containedBelow_leaf⟩

/-- Between declarations recovery makes an error over leaves. -/
theorem Holds.recovery (h : Holds whole state) (mode : Recovery) :
    Holds whole (mode.run state) := by
  refine ⟨(Recovery.run_follows mode state).tokens.trans h.rest, fun node hmem => ?_⟩
  rcases List.mem_cons.mp hmem with rfl | hmem
  · intro child hchild
    have hplain := ParseState.isPlainLeaf_bumpMany (mode.extent state.flush.rest)
      (by simp) child (List.mem_reverse.mp hchild)
    exact Node.contained_leaf hplain.1
  · exact h.flush.built node hmem

theorem Holds.declare (h : Holds whole state) (fuel : Nat) :
    Holds whole (declare (.upTo fuel) state) := by
  have hrooted := Production.Rooted.topLevelDeclaration (.upTo fuel)
  cases hrun : Production.topLevelDeclaration (.upTo fuel) 0 state with
  | error stop =>
    rw [Parse.declare, hrun]
    exact h.recovery _
  | ok next =>
    rw [declare_of_ok fuel hrun]
    rw [hrooted.apart state] at hrun
    cases hinner : Production.topLevelDeclaration (.upTo fuel) 0 state.flush.opened with
    | error stop => simp [hinner, Except.map] at hrun
    | ok last =>
      rw [hinner] at hrun
      obtain rfl := Except.ok.inj hrun
      have htwin : Twin (.upTo fuel) (.upTo fuel) 0 _ Unknown true [] [] _ _ :=
        .topLevelDeclaration
      have hopened : state.flush.opened.Contains whole :=
        ⟨h.flush.rest, fun _ hmem => by cases hmem⟩
      have hlast := htwin.contains (Grammar.upTo_advances fuel 0) (Grammar.upTo_containing fuel 0)
        hopened trivial hinner
      refine ⟨hlast.rest, fun node hmem => ?_⟩
      rcases List.mem_append.mp hmem with hmem | hmem
      · exact (hlast.built node hmem).below
      · exact h.flush.built node hmem

theorem Holds.declareAll (h : Holds whole state) (steps fuel : Nat) :
    Holds whole (declareAll (.upTo steps) fuel state) := by
  induction fuel generalizing state with
  | zero => exact h
  | succ fuel ih =>
    rw [Parse.declareAll]
    split
    · exact h
    · exact ih (h.declare steps)

/-- The errors below the declarations of a text are contained. -/
theorem containedBelow_children (chars : List Char) {node : Node}
    (hmem : node ∈ (parse chars none).root.children) :
    node.ContainedBelow (Lexeme.tokens (initial chars).rest) := by
  have hinitial : Holds (Lexeme.tokens (initial chars).rest) (initial chars) :=
    ⟨List.suffix_refl _, fun _ hmem => by cases hmem⟩
  have hfinal : Holds (Lexeme.tokens (initial chars).rest) (final chars) :=
    (hinitial.declareAll (Grammar.fuelFor (initial chars).rest.length) _).flush
  rw [parse_none_root] at hmem
  exact hfinal.built node (List.mem_reverse.mp hmem)

end Parse

/-! ## The punctuation of errors -/

namespace Node

/-- The punctuation of a text within a node, from left to right. -/
def punctuation (tokens : List Token) (node : Node) : List String :=
  Token.marks (tokens.filter fun token =>
    node.start.byte ≤ token.start.byte && token.stop.byte ≤ node.stop.byte)

/-- The errors below the declarations of a file that have a width. -/
def innerErrors (root : Node) : List Node :=
  (root.children.flatMap fun declaration => declaration.children.flatMap descendants).filter
    fun node => node.kind == .error && node.start.byte < node.stop.byte

end Node

theorem le_of_mem_tokenize {chars : List Char} {token : Token} (h : token ∈ tokenize chars) :
    token.start.byte ≤ token.stop.byte := by
  obtain ⟨piece, -, -, -, hstop⟩ := exists_piece_of_mem_place h
  rw [hstop]
  exact Location.byte_le_advance _ _

/-- The tokens of a text that are not trivia stand in a row. -/
theorem pairwise_plain (chars : List Char) :
    (Lexeme.tokens (Parse.initial chars).rest).Pairwise fun first second =>
      first.stop.byte ≤ second.start.byte := by
  obtain ⟨here, -, hready⟩ := Parse.initial_parsed chars
  rw [← hready.filter_stream, Parse.initial_stream]
  exact (tokenize_ordered chars).pairwise.sublist List.filter_sublist

theorem mem_tokenize_of_plain {chars : List Char} {token : Token}
    (h : token ∈ Lexeme.tokens (Parse.initial chars).rest) : token ∈ tokenize chars := by
  obtain ⟨here, -, hready⟩ := Parse.initial_parsed chars
  rw [← hready.filter_stream, Parse.initial_stream] at h
  exact (List.mem_filter.mp h).1

/-- Trivia is no punctuation. -/
theorem marks_plain (chars : List Char) (p : Token → Bool) :
    Token.marks ((tokenize chars).filter p)
      = Token.marks ((Lexeme.tokens (Parse.initial chars).rest).filter p) := by
  obtain ⟨here, -, hready⟩ := Parse.initial_parsed chars
  rw [← hready.filter_stream, Parse.initial_stream, Token.marks, Token.marks, List.filter_filter,
    List.filter_filter, List.filter_filter]
  refine congrArg (List.map _) (List.filter_congr fun token _ => ?_)
  cases hkind : token.kind <;> simp [TokenKind.isTrivia]

theorem Token.marks_append (left right : List Token) :
    marks (left ++ right) = marks left ++ marks right := by
  simp [marks]

theorem Token.marks_eq_nil {tokens : List Token} (h : ∀ token ∈ tokens, token.kind ≠ .punct) :
    marks tokens = [] := by
  rw [marks, List.filter_eq_nil_iff.mpr (by simpa using h)]
  rfl

/-- Tokens in a row stand between the start of the first and the end of the last. -/
theorem Token.within_of_mem {first last : Token} {more : List Token}
    (hpair : (first :: more).Pairwise fun first second => first.stop.byte ≤ second.start.byte)
    (hwidth : ∀ token ∈ first :: more, token.start.byte ≤ token.stop.byte)
    (hlast : (first :: more).getLast? = some last) {token : Token} (hmem : token ∈ first :: more) :
    first.start.byte ≤ token.start.byte ∧ token.stop.byte ≤ last.stop.byte := by
  obtain ⟨front, hfront⟩ := List.getLast?_eq_some_iff.mp hlast
  have hfirst := hwidth first List.mem_cons_self
  have hlast' := hwidth last (List.mem_of_getLast? hlast)
  constructor
  · rcases List.mem_cons.mp hmem with rfl | hmem
    · exact Nat.le_refl _
    · have := List.rel_of_pairwise_cons hpair hmem
      omega
  · rw [hfront] at hmem hpair
    rcases List.mem_append.mp hmem with hmem | hmem
    · have := (List.pairwise_append.mp hpair).2.2 token hmem last (by simp)
      omega
    · rw [List.mem_singleton.mp hmem]

/-- The punctuation within a stretch of tokens is theirs: those before and behind it are not
within, as punctuation has a width. -/
theorem Token.marks_within {left more right : List Token} {first last : Token}
    (hpair : (left ++ (first :: more ++ right)).Pairwise fun first second =>
      first.stop.byte ≤ second.start.byte)
    (hwidth : ∀ token ∈ left ++ (first :: more ++ right), token.start.byte ≤ token.stop.byte ∧
      (token.kind = .punct → token.start.byte < token.stop.byte))
    (hlast : (first :: more).getLast? = some last) :
    marks ((left ++ (first :: more ++ right)).filter fun token =>
        first.start.byte ≤ token.start.byte && token.stop.byte ≤ last.stop.byte)
      = marks (first :: more) := by
  rw [List.pairwise_append] at hpair
  obtain ⟨-, hpair, hleft⟩ := hpair
  rw [List.pairwise_append] at hpair
  obtain ⟨hmiddle, -, hright⟩ := hpair
  have hbefore : marks (left.filter fun token =>
      first.start.byte ≤ token.start.byte && token.stop.byte ≤ last.stop.byte) = [] := by
    refine marks_eq_nil fun token htoken hkind => ?_
    obtain ⟨htoken, hin⟩ := List.mem_filter.mp htoken
    have hle := hleft token htoken first (by simp)
    have hlt := (hwidth token (by simp [htoken])).2 hkind
    simp only [Bool.and_eq_true, decide_eq_true_eq] at hin
    omega
  have hbehind : marks (right.filter fun token =>
      first.start.byte ≤ token.start.byte && token.stop.byte ≤ last.stop.byte) = [] := by
    refine marks_eq_nil fun token htoken hkind => ?_
    obtain ⟨htoken, hin⟩ := List.mem_filter.mp htoken
    have hle := hright last (List.mem_of_getLast? hlast) token htoken
    have hlt := (hwidth token (by simp [htoken])).2 hkind
    simp only [Bool.and_eq_true, decide_eq_true_eq] at hin
    omega
  have hself : (first :: more).filter (fun token =>
      first.start.byte ≤ token.start.byte && token.stop.byte ≤ last.stop.byte) = first :: more := by
    refine List.filter_eq_self.mpr fun token htoken => ?_
    have hwide := fun token htoken => (hwidth token
      (List.mem_append_right _ (List.mem_append_left _ htoken))).1
    simpa using within_of_mem hmiddle hwide hlast htoken
  rw [List.filter_append, List.filter_append, marks_append, marks_append, hbefore, hself, hbehind,
    List.nil_append, List.append_nil]

/-- The punctuation within an error is that of the tokens it stands over. -/
theorem Node.PassesOver.closesOwnBraces {chars : List Char} {node : Node}
    (h : node.PassesOver (Lexeme.tokens (Parse.initial chars).rest)) :
    Marks.ClosesOwnBraces (node.punctuation (tokenize chars)) := by
  obtain ⟨left, first, more, right, last, hwhole, hlast, hstart, hstop, hbraces⟩ := h
  have hmem : ∀ token ∈ left ++ (first :: more ++ right), token ∈ tokenize chars :=
    fun token hmem => mem_tokenize_of_plain (hwhole ▸ hmem)
  have hpair := pairwise_plain chars
  rw [hwhole] at hpair
  have hmarks := Token.marks_within hpair (fun token htoken =>
    ⟨le_of_mem_tokenize (hmem token htoken), fun hkind =>
      width_of_mem_tokenize (hmem token htoken) (by simp [hkind])⟩) hlast
  rw [Node.punctuation, marks_plain, hwhole, hstart, hstop, hmarks]
  exact hbraces

/-- Every error below a declaration takes a closing brace only if it has taken the opening one, as
long as no round or square bracket is open in it. -/
def Node.ErrorsContained (tokens : List Token) (root : Node) : Prop :=
  ∀ error ∈ root.innerErrors, Marks.ClosesOwnBraces (error.punctuation tokens)

/-- In the tree of every text, errors below declarations are contained. -/
theorem parse_errorsContained (chars : List Char) :
    (parse chars none).root.ErrorsContained (tokenize chars) := by
  intro error hmem
  obtain ⟨hmem, herror⟩ := List.mem_filter.mp hmem
  obtain ⟨declaration, hdeclaration, hmem⟩ := List.mem_flatMap.mp hmem
  obtain ⟨child, hchild, hmem⟩ := List.mem_flatMap.mp hmem
  simp only [Bool.and_eq_true, beq_iff_eq, decide_eq_true_eq] at herror
  obtain ⟨hkind, hwidth⟩ := herror
  have hcontained := Parse.containedBelow_children chars hdeclaration child hchild
  refine (hcontained error hmem hkind fun hleaf => ?_).closesOwnBraces
  -- errors without children have no width
  obtain ⟨hi, -, hcovers⟩ := Parse.root_covers chars
  have hbelow : error ∈ declaration.descendants := by
    rw [Node.descendants_eq]
    exact List.mem_cons_of_mem _ (List.mem_flatMap.mpr ⟨child, hchild, hmem⟩)
  have hformed := hcovers.formed error (List.mem_flatMap.mpr ⟨declaration, hdeclaration, hbelow⟩)
  obtain ⟨hstart, hstop⟩ := hformed.gap hkind hleaf
  rw [hstart, hstop] at hwidth
  exact Nat.lt_irrefl _ hwidth

/-- A function whose body opens a round bracket and never closes it. -/
def unclosedBracket : List Char := "void f() \x7b ( \x7d\nfloat g;\n".toList

/-- The brace that closes a block ends up in an error in the block if a round bracket is open. -/
theorem closing_brace_lost :
    ¬ ∀ chars : List Char, ∀ error ∈ (parse chars none).root.innerErrors,
      ∀ seen, seen <+: error.punctuation (tokenize chars) →
        seen.count "\x7d" ≤ seen.count "\x7b" := by
  intro hall
  obtain ⟨error, hmem, hmarks⟩ : ∃ error ∈ (parse unclosedBracket none).root.innerErrors,
      error.punctuation (tokenize unclosedBracket) = ["(", "\x7d"] := by decide +kernel
  have hcount := hall unclosedBracket error hmem ["(", "\x7d"] (hmarks ▸ List.prefix_refl _)
  exact absurd hcount (by decide)

end Azsl
