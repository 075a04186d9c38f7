/-
Azsl.Proofs.Parse.Leaves — the unnamed nodes and the names of a tree are leaves with a width.

Only the path of an include may be empty, and it is a node of its own kind. So an unnamed node
that no error hides is never empty, and a search for a stretch of text never gets stuck in one.
Names are made of words alone. What is inside of errors is made of whatever was passed over;
there nothing is said.
-/
import Azsl.Proofs.Grammar.Building
import Azsl.Proofs.Parse.Containment
import Azsl.Proofs.Parse.Outermost
import Azsl.Proofs.Syntax.Lookup
import Azsl.Proofs.Token.Start

namespace Azsl

/-! ## Tokens -/

/-- Tokens in a row among those of a text: one with a text has a width, and none ends before the
one in front of it. -/
structure Laid (source tokens : List Token) : Prop where
  within : tokens ⊆ source
  width : ∀ token ∈ tokens, token.Solid → token.start.byte < token.stop.byte
  quoted : ∀ token ∈ tokens, token.kind = .stringLiteral → token.Quoted
  ordered : tokens.Pairwise fun first second => first.stop.byte ≤ second.stop.byte

theorem Token.Solid.of_word {token : Token} (h : token.kind = .word) : token.Solid := by
  intro hpath
  rw [h] at hpath
  cases hpath

theorem Laid.of_suffix {source tokens rest : List Token} (h : Laid source tokens)
    (hrest : rest <:+ tokens) : Laid source rest where
  within _ hmem := h.within (hrest.mem hmem)
  width token hmem := h.width token (hrest.mem hmem)
  quoted token hmem := h.quoted token (hrest.mem hmem)
  ordered := h.ordered.sublist hrest.sublist

/-! ## Nodes -/

namespace Node

/-- Unnamed nodes and names are leaves with a width, and a name starts where a word of the text
does. -/
structure Solid (source : List Token) (node : Node) : Prop where
  leaf : node.kind = .token ∨ node.kind = .identifier → node.children = []
  width : node.kind = .token ∨ node.kind = .identifier → node.start.byte < node.stop.byte
  word : node.kind = .identifier →
    ∃ token ∈ source, token.kind = .word ∧ token.start = node.start

/-- A node and all below it that no error hides are solid. -/
def SolidThroughout (source : List Token) (node : Node) : Prop :=
  ∀ below ∈ node.visible, below.Solid source

variable {source : List Token} {node : Node}

/-- Nodes of all other kinds are solid. -/
theorem Solid.of_kind (h : node.kind ≠ .token ∧ node.kind ≠ .identifier) : node.Solid source :=
  ⟨fun hkind => absurd hkind (not_or.mpr h), fun hkind => absurd hkind (not_or.mpr h),
    fun hkind => absurd hkind h.2⟩

theorem SolidThroughout.of_children (hself : node.Solid source)
    (h : node.kind = .error ∨ ∀ child ∈ node.children, child.SolidThroughout source) :
    node.SolidThroughout source := by
  intro below hmem
  rw [visible_eq] at hmem
  rcases List.mem_cons.mp hmem with rfl | hmem
  · exact hself
  · rcases h with herror | hchildren
    · simp [herror] at hmem
    · split at hmem
      · cases hmem
      · obtain ⟨child, hchild, hbelow⟩ := List.mem_flatMap.mp hmem
        exact hchildren child hchild below hbelow

theorem SolidThroughout.leaf (hself : node.Solid source) (h : node.children = []) :
    node.SolidThroughout source :=
  .of_children hself (.inr (by simp [h]))

theorem solidThroughout_error {children : List Node} :
    (ofChildren .error children).SolidThroughout source :=
  .of_children (.of_kind ⟨nofun, nofun⟩) (.inl rfl)

/-- Trivia is neither an unnamed node nor a name. -/
theorem kind_triviaNode (token : Token) :
    (ParseState.triviaNode token).kind ≠ .token ∧
      (ParseState.triviaNode token).kind ≠ .identifier := by
  show (if token.kind = .comment then NodeKind.comment else .preprocDirective) ≠ .token ∧
    (if token.kind = .comment then NodeKind.comment else .preprocDirective) ≠ .identifier
  split <;> decide

theorem solidThroughout_triviaNode (token : Token) :
    (ParseState.triviaNode token).SolidThroughout source :=
  .leaf (.of_kind (kind_triviaNode token)) rfl

theorem solidThroughout_composite {kind : NodeKind} {children : List Node}
    (hkind : kind.isComposite = true) (h : ∀ child ∈ children, child.SolidThroughout source) :
    (ofChildren kind children).SolidThroughout source := by
  refine .of_children (.of_kind ⟨?_, ?_⟩) (.inr h)
  · rintro (rfl : kind = _)
    cases hkind
  · rintro (rfl : kind = _)
    cases hkind

/-- The parts of a string have a width. -/
theorem solidThroughout_string {token : Token} (h : token.Quoted) :
    (ofChildren .stringLiteral (Production.stringParts token)).SolidThroughout source := by
  refine .of_children (.of_kind ⟨nofun, nofun⟩) (.inr fun part hmem => ?_)
  have hpart : part ∈ Production.stringParts token := hmem
  obtain ⟨hkind, hchildren, hwidth⟩ := leaf_of_mem_stringParts h hpart
  have hname : part.kind ≠ .identifier := by
    rcases hkind with hkind | hkind <;> rw [hkind] <;> nofun
  exact .leaf ⟨fun _ => hchildren, fun _ => hwidth, fun hkind => absurd hkind hname⟩ hchildren

end Node

/-- What a walk that leaves out the inside of errors reaches is visible. -/
theorem Focus.node_mem_visible {root focus : Focus} (h : focus ∈ root.visible) :
    focus.node ∈ root.node.visible := by
  obtain ⟨node, frames⟩ := root
  induction node using Node.rec_children generalizing frames with
  | step node ih =>
    rw [visible_eq] at h
    rw [Node.visible_eq]
    rcases List.mem_cons.mp h with rfl | h
    · exact List.mem_cons_self
    · refine List.mem_cons_of_mem _ ?_
      split at h
      · cases h
      · rename_i hkind
        obtain ⟨⟨child, frames'⟩, hchild, hbelow⟩ := List.mem_flatMap.mp h
        have hmem : child ∈ node.children := node_mem_children hchild
        have hall : focus.node ∈ node.children.flatMap Node.visible :=
          List.mem_flatMap.mpr ⟨child, hmem, ih child hmem frames' hbelow⟩
        exact (if_neg hkind).symm ▸ hall

/-! ## States -/

namespace ParseState

/-- The input that is left is laid out, and what is built is solid. -/
structure Solid (source : List Token) (state : ParseState) : Prop where
  rest : Laid source (Lexeme.tokens state.rest)
  built : state.All (Node.SolidThroughout source)

variable {source : List Token} {state last : ParseState}

/-- Only solid trees are added. -/
theorem Solid.later (h : state.Solid source) (hfollows : last.Follows state)
    (hbuilt : ∀ node ∈ last.built, node ∈ state.built ∨ node.SolidThroughout source) :
    last.Solid source :=
  ⟨h.rest.of_suffix hfollows.tokens, fun node hmem => (hbuilt node hmem).elim (h.built node) id⟩

theorem Solid.flush (h : state.Solid source) : state.flush.Solid source := by
  obtain ⟨trivia, htrivia⟩ := state.built_flush
  refine h.later state.flush_follows fun node hmem => ?_
  rw [htrivia] at hmem
  rcases List.mem_append.mp hmem with hmem | hmem
  · obtain ⟨token, -, rfl⟩ := List.mem_map.mp hmem
    exact .inr (Node.solidThroughout_triviaNode token)
  · exact .inl hmem

theorem Solid.opened (h : state.Solid source) : state.opened.Solid source :=
  ⟨h.rest, .opened⟩

/-- Closing a node adds that node. -/
theorem Solid.close {outer inner : ParseState} (houter : outer.Solid source)
    (hinner : Laid source (Lexeme.tokens inner.rest)) {kind : NodeKind}
    (hnode : (Node.ofChildren kind inner.built.reverse).SolidThroughout source) :
    (outer.close kind inner).Solid source :=
  ⟨hinner, houter.built.close hnode⟩

theorem Solid.recovery (h : state.Solid source) (mode : Recovery) :
    (mode.run state).Solid source := by
  refine ⟨h.rest.of_suffix (Recovery.run_follows mode state).tokens, ?_⟩
  exact h.flush.built.close Node.solidThroughout_error

theorem Solid.missing (h : state.Solid source) : state.missing.Solid source := by
  refine ⟨h.flush.rest, fun node hmem => ?_⟩
  rcases List.mem_cons.mp hmem with rfl | hmem
  · exact .leaf (.of_kind ⟨nofun, nofun⟩) rfl
  · exact h.flush.built node hmem

/-- Taking tokens as a leaf that suits the first of them. -/
theorem Solid.bumpJoined (h : state.Solid source) {count : Nat} {kind : NodeKind}
    (hsuits : Suits kind (· = state.flush.rest)) :
    (state.bumpJoined count kind).Solid source := by
  have hflush := h.flush
  unfold ParseState.bumpJoined
  simp only
  split
  · rename_i first last hfirst hlast
    refine ⟨hflush.rest.of_suffix ?_, fun node hmem => ?_⟩
    · rw [Lexeme.tokens, List.map_drop]
      exact List.drop_suffix _ _
    rcases List.mem_cons.mp hmem with rfl | hmem
    · cases hrest : state.flush.rest with
      | nil =>
        rw [hrest] at hfirst
        cases hfirst
      | cons head others =>
        have hhead : head ∈ state.flush.rest.head? := by rw [hrest]; rfl
        have hlaid := hflush.rest
        rw [hrest] at hfirst hlast hlaid
        obtain rfl : head.token = first := by simpa [Lookahead.token?] using hfirst
        have hmem : head.token ∈ Lexeme.tokens (head :: others) := List.mem_cons_self
        refine .leaf ⟨fun _ => rfl, fun hkind => ?_, fun hkind => ?_⟩ rfl
        · have hsolid : head.token.Solid := by
            rcases hkind with hkind | hkind
            · exact hsuits.solid hkind _ rfl head hhead
            · exact .of_word (hsuits.word hkind _ rfl head hhead)
          have hwidth := hlaid.width _ hmem hsolid
          obtain ⟨lexeme, hlexeme, rfl⟩ := Option.map_eq_some_iff.mp hlast
          rcases List.mem_cons.mp (List.mem_of_getElem? hlexeme) with rfl | hothers
          · exact hwidth
          · exact Nat.lt_of_lt_of_le hwidth
              (List.rel_of_pairwise_cons hlaid.ordered (List.mem_map_of_mem hothers))
        · exact ⟨head.token, hlaid.within hmem, hsuits.word hkind _ rfl head hhead, rfl⟩
    · exact hflush.built node hmem
  · exact hflush

/-- A brace is taken as an unnamed leaf. -/
theorem Solid.bumpAt (h : state.Solid source) {text : String} (hsees : state.sees text = true) :
    state.bump.Solid source := by
  have hrole : ∀ input, input = state.flush.rest → Lookahead.HasRole input 0 (.ofText text) := by
    rintro input rfl
    rw [flush_rest]
    exact .of_isAt ((Lookahead.isAt_bare _ _ _).trans hsees)
  exact h.bumpJoined (.token hrole)

theorem Solid.string (h : state.Solid source) (hrun : Production.stringLiteral state = .ok last) :
    last.Solid source := by
  obtain ⟨first, others, hrest, hkind, rfl⟩ := Production.stringLiteral_eq_ok.mp hrun
  refine h.flush.close (h.flush.rest.of_suffix ?_) ?_
  · simp [Lexeme.tokens, Lexeme.bare, hrest]
  · rw [List.reverse_reverse]
    refine Node.solidThroughout_string (h.rest.quoted _ ?_ hkind)
    rw [hrest]
    exact List.mem_cons_self

end ParseState

/-! ## Combinations -/

/-- Every nonterminal builds solid trees. -/
def Grammar.Solid (grammar : Grammar) (depth : Nat) : Prop :=
  ∀ (rule : Rule) {source : List Token} {state last : ParseState}, state.Solid source →
    grammar rule depth state = .ok last → last.Solid source

namespace Twin

variable {grammar grammar' : Grammar} {depth : Nat} {mode : Mode} {known : List Lexeme → Prop}
  {takes : Bool} {pending next : List Closer} {body body' : Production}

/-- A combination builds solid trees. -/
theorem solid (h : Twin grammar grammar' depth mode known takes pending next body body')
    (hcalls : grammar.Solid depth) {source : List Token} {state last : ParseState}
    (hstate : state.Solid source) (hknown : known (Lexeme.bare state.rest))
    (hrun : body state = .ok last) : last.Solid source := by
  induction h generalizing state last with
  | skip => exact Except.ok.inj hrun ▸ hstate
  | fail => simp [Production.fail] at hrun
  | take hsuits _ =>
    obtain rfl := Except.ok.inj hrun
    refine hstate.bumpJoined ⟨hsuits.leaf, fun hkind input hinput => ?_,
      fun hkind input hinput => ?_⟩
    · exact hsuits.solid hkind input (by rwa [hinput, ParseState.flush_rest])
    · exact hsuits.word hkind input (by rwa [hinput, ParseState.flush_rest])
  | string => exact hstate.string hrun
  | @choose _ _ _ _ _ select _ hselect _ _ ih =>
    have hchosen : select state.rest state = .ok last := hrun
    rw [← hselect.bare] at hchosen
    exact ih _ hknown hstate rfl hchosen
  | orElse _ _ _ ih₁ ih₂ =>
    rcases Production.orElse_eq_ok.mp hrun with hfirst | ⟨-, hsecond⟩
    · exact ih₁ hstate hknown hfirst
    · exact ih₂ hstate hknown hsecond
  | seq _ _ _ ih₁ ih₂ =>
    obtain ⟨between, hfirst, hsecond⟩ := Production.seq_eq_ok.mp hrun
    exact ih₂ (ih₁ hstate hknown hfirst) trivial hsecond
  | node hkind _ ih =>
    obtain ⟨inner, hinner, rfl⟩ := Production.node_eq_ok.mp hrun
    have hbody := ih hstate.flush.opened (by simpa using hknown) hinner
    exact hstate.flush.close hbody.rest <| Node.solidThroughout_composite hkind fun child hchild =>
      hbody.built child (List.mem_reverse.mp hchild)
  | inScope _ ih =>
    obtain ⟨inner, hinner, rfl⟩ := Production.inScope_eq_ok.mp hrun
    have hbody := ih hstate.flush.opened (by simpa using hknown) hinner
    refine ⟨hbody.rest, fun node hmem => ?_⟩
    rcases List.mem_append.mp hmem with hmem | hmem
    · exact hbody.built node hmem
    · exact hstate.flush.built node hmem
  | enclose hkind _ ih =>
    obtain ⟨inner, hinner, rfl⟩ := Production.enclose_eq_ok.mp hrun
    have hbody := ih hstate hknown hinner
    refine ⟨hbody.rest, fun node hmem => ?_⟩
    obtain rfl := List.mem_singleton.mp hmem
    exact Node.solidThroughout_composite hkind fun child hchild =>
      hbody.built child (List.mem_reverse.mp hchild)
  | whileAhead hlook _ _ ih =>
    exact Production.iterate_whileTurn_keeps (I := (·.Solid source))
      (fun hl hbody hhere => ih hhere ((hlook.bare _).trans hl) hbody) hrun hstate
  | braced _ ih =>
    obtain ⟨between, hbetween, ⟨hsees, rfl⟩ | ⟨-, rfl⟩⟩ := Production.braced_keeps
      (I := (·.Solid source))
      (fun hs hr hi hhere => ih hhere (Lookahead.item_bare.mpr ⟨hr, hs⟩) hi) hrun
      fun hopen => hstate.bumpAt hopen
    · exact hbetween.bumpAt hsees
    · exact hbetween.missing
  | recover _ =>
    obtain rfl := Except.ok.inj hrun
    exact hstate.recovery _
  | orRecover _ _ ih =>
    rcases Production.orRecover_eq_ok.mp hrun with ⟨-, rfl⟩ | ⟨next, hnext, -, rfl⟩ | ⟨htaken, -⟩
    · exact hstate.recovery _
    · exact (ih hstate hknown hnext).recovery _
    · exact ih hstate hknown htaken
  | call rule => exact hcalls rule hstate hrun
  | weaken _ _ hk _ ih => exact ih hstate (hk _ hknown) hrun
  | enter _ _ ih => exact ih hstate hknown hrun

end Twin

theorem Grammar.upTo_solid (fuel depth : Nat) : (upTo fuel).Solid depth := by
  induction fuel generalizing depth with
  | zero =>
    intro rule source state last _ hrun
    cases hrun
  | succ fuel ih =>
    intro rule source state last hstate hrun
    have hstep : Twin (upTo fuel) (upTo fuel) _ _ Unknown true [] [] _ _ := .step rule depth
    exact hstep.solid (ih _) hstate trivial hrun

/-! ## Files -/

/-- A token with a text has a width. -/
theorem Token.Solid.width {chars : List Char} {token : Token} (h : token.Solid)
    (hmem : token ∈ tokenize chars) : token.start.byte < token.stop.byte := by
  by_cases hpath : token.kind = .includePath
  · obtain ⟨piece, -, -, htext, hstop⟩ := exists_piece_of_mem_place hmem
    have hne : piece.chars ≠ [] := by
      rintro hnil
      exact h hpath (String.toList_eq_nil_iff.mp (htext.trans hnil))
    have hpos := byteLength_pos hne
    rw [hstop, Location.byte_advance]
    omega
  · exact width_of_mem_tokenize hmem hpath

namespace Parse

variable {chars : List Char}

theorem initial_laid (chars : List Char) :
    Laid (tokenize chars) (Lexeme.tokens (initial chars).rest) where
  within _ := mem_tokenize_of_plain
  width _ hmem hsolid := hsolid.width (mem_tokenize_of_plain hmem)
  quoted _ hmem := (fine_of_mem_tokenize (mem_tokenize_of_plain hmem)).quoted
  ordered := (pairwise_plain chars).imp_of_mem fun _ hmem hle =>
    Nat.le_trans hle (le_of_mem_tokenize (mem_tokenize_of_plain hmem))

theorem declare_solid (fuel : Nat) {source : List Token} {state : ParseState}
    (h : state.Solid source) : (declare (.upTo fuel) state).Solid source := by
  cases hrun : Production.topLevelDeclaration (.upTo fuel) 0 state with
  | ok next =>
    have htwin : Twin (.upTo fuel) (.upTo fuel) 0 _ Unknown true [] [] _ _ :=
      .topLevelDeclaration
    rw [declare_of_ok fuel hrun]
    exact htwin.solid (Grammar.upTo_solid fuel 0) h trivial hrun
  | error stop =>
    rw [declare, hrun]
    exact h.recovery _

theorem declareAll_solid (steps fuel : Nat) {source : List Token} {state : ParseState}
    (h : state.Solid source) : (declareAll (.upTo steps) fuel state).Solid source := by
  induction fuel generalizing state with
  | zero => exact h
  | succ fuel ih =>
    rw [declareAll]
    split
    · exact h
    · exact ih (declare_solid steps h)

/-- A tree is solid as far as no error hides it. -/
theorem solidThroughout_root (chars : List Char) :
    (parse chars none).root.SolidThroughout (tokenize chars) := by
  have hinitial : (initial chars).Solid (tokenize chars) :=
    ⟨initial_laid chars, fun _ hmem => by cases hmem⟩
  have hfinal : (final chars).Solid (tokenize chars) :=
    (declareAll_solid (Grammar.fuelFor (initial chars).rest.length) _ hinitial).flush
  rw [parse_none_root]
  exact .of_children (.of_kind ⟨nofun, nofun⟩)
    (.inr fun child hchild => hfinal.built child (List.mem_reverse.mp hchild))

/-- Whatever no error hides is solid. -/
theorem solid_of_mem_visible {focus : Focus}
    (h : focus ∈ (Focus.ofRoot (parse chars none).root).visible) :
    focus.node.Solid (tokenize chars) :=
  solidThroughout_root chars _ (Focus.node_mem_visible h)

end Parse

end Azsl
