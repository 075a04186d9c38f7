/-
Azsl.Proofs.Parse.Foreign — characters that no rule of the lexer takes are reported.

A declaration takes no foreign token: every token it takes is told by its kind or by its text, and
the foreign ones are spelled like no keyword. So they can only be passed over, and what passes over
them makes an error of them. The one exception is an include with its whole path, which is a
declaration of its own (`includeStatement_inv`).
-/
import Azsl.Proofs.Grammar.Yield
import Azsl.Proofs.Parse.Ascent
import Azsl.Proofs.Parse.Outermost
import Azsl.Proofs.Parse.Places
import Azsl.Proofs.Text.Order
import Azsl.Symbol.Collect

namespace Azsl

open ParseState

/-! ## Foreign tokens of a text -/

namespace Scan

theorem nextToken_eq_unknown {chars : List Char} (h : (nextToken chars).1 = .unknown) :
    (nextToken chars).2 = 1 := by
  unfold nextToken at h ⊢
  simp only at h ⊢
  split_ifs at h ⊢
  rfl

end Scan

/-- How the pieces of foreign tokens are spelled. -/
structure Piece.Legible (piece : Piece) : Prop where
  unknown : piece.kind = some .unknown → piece.chars.length = 1
  directive : piece.kind = some .includeDirective → piece.chars = "#include".toList

theorem Piece.Legible.of_kind {piece : Piece}
    (h : piece.kind ≠ some .unknown ∧ piece.kind ≠ some .includeDirective) : piece.Legible :=
  ⟨fun hkind => absurd hkind h.1, fun hkind => absurd hkind h.2⟩

open Scan in
theorem legible_of_nextPieces {chars : List Char} (hne : chars ≠ []) {piece : Piece}
    (h : piece ∈ nextPieces chars) : piece.Legible := by
  have htoken : Piece.Legible ⟨some (nextToken chars).1, chars.take (nextToken chars).2⟩ := by
    refine ⟨fun hkind => ?_, fun hkind => ?_⟩
    · obtain ⟨c, rest, rfl⟩ := List.exists_cons_of_ne_nil hne
      rw [nextToken_eq_unknown (Option.some.inj hkind)]
      rfl
    · obtain ⟨hlength, hname⟩ := nextToken_eq_include (Option.some.inj hkind)
      rw [hlength, ← hname]
      rfl
  unfold nextPieces at h
  simp only at h
  split at h
  · split at h
    · rcases List.mem_cons.mp h with rfl | h
      · exact htoken
      · refine .of_kind ?_
        rcases kind_of_mem_includeTail h with hkind | hkind | hkind <;> simp [hkind]
    · exact List.mem_singleton.mp h ▸ htoken
  · exact List.mem_singleton.mp h ▸ .of_kind (by simp)

theorem legible_of_pieces {chars : List Char} {piece : Piece} (h : piece ∈ pieces chars) :
    piece.Legible := by
  induction chars using pieces_induction with
  | nil => cases h
  | step chars hne ih =>
    rw [pieces_eq hne, List.mem_append] at h
    exact h.elim (legible_of_nextPieces hne) ih

theorem legible_of_mem_tokenize {chars : List Char} {token : Token} (h : token ∈ tokenize chars) :
    token.Legible := by
  obtain ⟨piece, hmem, hkind, htext, -⟩ := exists_piece_of_mem_place h
  have hlegible := legible_of_pieces hmem
  refine ⟨fun hunknown => ?_, fun hdirective => ?_⟩
  · rw [htext]
    exact hlegible.unknown (hunknown ▸ hkind)
  · rw [← String.toList_inj, htext]
    exact hlegible.directive (hdirective ▸ hkind)

theorem Token.isForeign_of_isTrivia {token : Token} (h : token.kind.isTrivia = true) :
    token.isForeign = false := by
  refine isForeign_of_kind ⟨?_, ?_⟩ <;> intro hkind <;> rw [hkind] at h <;> cases h

/-! ## Reported tokens -/

/-- A token is right below an error that is not inside another one. -/
def Token.Reported (nodes : List Node) (token : Token) : Prop :=
  ∃ error ∈ nodes.flatMap Node.visible, error.kind = .error ∧
    .leaf .token token.start token.stop ∈ error.children

namespace Token.Reported

variable {nodes others : List Node} {token : Token}

theorem left (h : token.Reported nodes) (others : List Node) :
    token.Reported (nodes ++ others) := by
  obtain ⟨error, hmem, herror⟩ := h
  exact ⟨error, by rw [List.flatMap_append]; exact List.mem_append_left _ hmem, herror⟩

theorem right (h : token.Reported nodes) (others : List Node) :
    token.Reported (others ++ nodes) := by
  obtain ⟨error, hmem, herror⟩ := h
  exact ⟨error, by rw [List.flatMap_append]; exact List.mem_append_right _ hmem, herror⟩

/-- What is below a node that is no error can be seen from outside. -/
theorem below (h : token.Reported nodes) {kind : NodeKind} (hkind : kind ≠ .error) :
    token.Reported [.ofChildren kind nodes] := by
  obtain ⟨error, hmem, herror⟩ := h
  refine ⟨error, ?_, herror⟩
  rw [List.flatMap_singleton]
  exact Node.mem_visible_of_below hkind hmem

end Token.Reported

/-- What was made of a foreign token of a text is an error around it. -/
theorem Yields.reported {textEnd : Location} {nodes : List Node} {tokens : List Token}
    (h : Yields true textEnd nodes tokens) {token : Token} (hmem : token ∈ tokens)
    (hlegible : token.Legible) (hforeign : token.isForeign = true) : token.Reported nodes := by
  have hnative : ¬ token.Admitted true := fun hadmitted => by
    rw [hadmitted rfl hlegible] at hforeign
    cases hforeign
  induction h with
  | nil => cases hmem
  | trivia hadmitted _ ih =>
    rcases List.mem_cons.mp hmem with rfl | hmem
    · exact absurd hadmitted hnative
    · exact (ih hmem).right [_]
  | leaf _ _ hadmitted _ ih =>
    rcases List.mem_append.mp hmem with hmem | hmem
    · exact absurd (hadmitted token hmem) hnative
    · exact (ih hmem).right [_]
  | string hkind _ ih =>
    rcases List.mem_cons.mp hmem with rfl | hmem
    · exact absurd (.of_kind (by simp [hkind])) hnative
    · exact (ih hmem).right [_]
  | @composite kind _ _ _ _ hkind _ _ _ ih₁ ih₂ =>
    rcases List.mem_append.mp hmem with hmem | hmem
    · have hnode : kind ≠ .error := by
        rintro rfl
        cases hkind
      exact ((ih₁ hmem).below hnode).left _
    · exact (ih₂ hmem).right [_]
  | @error children passed nodes _ hover _ ih =>
    rcases List.mem_append.mp hmem with hmem | hmem
    · obtain ⟨node, hnode, ⟨-, hadmitted⟩ | rfl⟩ := exists_partner hover hmem
      · exact absurd hadmitted hnative
      · exact ⟨.ofChildren .error children, List.mem_append_left _ (Node.mem_visible_self _), rfl,
          hnode⟩
    · exact (ih hmem).right [_]
  | missing _ ih => exact (ih hmem).right [_]

/-! ## Whole includes -/

/-- A directive with its whole path behind it: a delimiter, the path, and the delimiter that closes
it. -/
def Token.Includes (tokens : List Token) (directive : Token) : Prop :=
  ∃ before opening path closing behind,
    tokens = before ++ directive :: opening :: path :: closing :: behind ∧
      directive.kind = .includeDirective ∧ path.kind = .includePath ∧
      (opening.is "\"" = true ∧ closing.is "\"" = true ∨
        opening.is "<" = true ∧ closing.is ">" = true)

namespace Parse

variable {chars : List Char} {past tokens more : List Token} {nodes others : List Node}
  {state : ParseState}

/-- The foreign tokens among some tokens of a text are reported, unless they include a file. -/
def Reports (chars : List Char) (nodes : List Node) (tokens : List Token) : Prop :=
  ∀ token ∈ tokens, token.isForeign = true →
    token.Reported nodes ∨ token.Includes (Token.plain (tokenize chars))

theorem Reports.append (h : Reports chars nodes tokens) (h' : Reports chars others more) :
    Reports chars (nodes ++ others) (tokens ++ more) := by
  intro token hmem hforeign
  rcases List.mem_append.mp hmem with hmem | hmem
  · exact (h token hmem hforeign).imp (·.left _) id
  · exact (h' token hmem hforeign).imp (·.right _) id

theorem reports_of_yields {textEnd : Location} (h : Yields true textEnd nodes tokens)
    (htokens : tokens ⊆ tokenize chars) : Reports chars nodes tokens := fun _ hmem hforeign =>
  .inl (h.reported hmem (legible_of_mem_tokenize (htokens hmem)) hforeign)

theorem isForeign_of_mem_trivia {here : Nat} (h : state.Ready here) :
    ∀ token ∈ state.trivia, token.isForeign = false := by
  intro token hmem
  refine Token.isForeign_of_isTrivia ?_
  rcases List.mem_append.mp hmem with hmem | hmem
  · obtain ⟨lexeme, hlexeme, hmem⟩ := List.mem_flatMap.mp hmem
    exact (h.lexemes lexeme hlexeme).1 token hmem
  · exact h.trailing token hmem

theorem reports_of_not_isForeign (h : ∀ token ∈ tokens, token.isForeign = false) :
    Reports chars nodes tokens := by
  intro token hmem hforeign
  rw [h token hmem] at hforeign
  cases hforeign

/-- The tokens of a text that are not trivia are those before a point and those that are left. -/
theorem Point.plain_eq (h : Point chars past state) :
    Token.plain (tokenize chars) = Token.plain past ++ Lexeme.tokens state.rest := by
  obtain ⟨here, -, hready⟩ := h.parsed
  rw [h.stream, Token.plain, List.filter_append, hready.filter_stream]
  rfl

/-- An include that is a declaration takes its directive and the whole path. -/
theorem Point.reports_include (h : Point chars past state) {last : ParseState}
    (hkind : (Lookahead.kind? state.flush.opened.rest 0 == some .includeDirective) = true)
    (hrun : Production.includeStatement state.flush.opened = .ok last) :
    ∃ taken, state.flush.opened.stream = taken ++ last.stream ∧
      Reports chars last.built.reverse taken := by
  obtain ⟨here, -, hready⟩ := h.ready
  obtain ⟨first, opening, path, closing, behind, hrest, hpath, hdelimits⟩ :=
    Production.includeStatement_inv hrun
  rw [Production.includeStatement_apply hrest hpath hdelimits, flush_opened_flush] at hrun
  obtain rfl := Except.ok.inj hrun
  have hopening := h.kind_opening hrest hpath
  have hfirst : first.token.kind = .includeDirective := by
    rw [hrest] at hkind
    simpa [Lookahead.kind?, Lookahead.token?] using hkind
  refine ⟨[first, opening, path, closing].flatMap fun lexeme => lexeme.leading ++ [lexeme.token],
    ?_, fun token hmem hforeign => .inr ?_⟩
  · rw [ParseState.stream, hrest]
    simp [ParseState.stream, close]
  have hclosing : closing.token.isForeign = false := by
    rcases hdelimits with ⟨-, his⟩ | ⟨-, his⟩ <;> exact Token.isForeign_of_is his
  obtain ⟨lexeme, hlexeme, hmem⟩ := List.mem_flatMap.mp hmem
  rcases List.mem_append.mp hmem with hleading | hmem
  · have htrivia := (hready.lexemes lexeme (by
      rw [hrest]
      exact List.mem_append_left behind hlexeme)).1 token hleading
    rw [Token.isForeign_of_isTrivia htrivia] at hforeign
    cases hforeign
  · rw [List.mem_singleton.mp hmem] at hforeign ⊢
    simp only [List.mem_cons, List.not_mem_nil, or_false] at hlexeme
    rcases hlexeme with rfl | rfl | rfl | rfl
    · have htokens : Lexeme.tokens state.rest = Lexeme.tokens state.flush.opened.rest := by
        rw [opened_rest, flush_rest, Lexeme.tokens_bare]
      refine ⟨Token.plain past, opening.token, path.token, closing.token, Lexeme.tokens behind, ?_,
        hfirst, hpath, hdelimits.imp (And.imp_left ?_) (And.imp_left ?_)⟩
      · rw [h.plain_eq, htokens, hrest]
        rfl
      all_goals
        intro htext
        simp [Token.is, hopening, htext]
    · simp [Token.isForeign, hopening] at hforeign
    · simp [Token.isForeign, hpath] at hforeign
    · rw [hclosing] at hforeign
      cases hforeign

open Production in
/-- A declaration that is no include takes no foreign token but into an error. -/
theorem otherDeclaration_makes {fuel : Nat} {last : ParseState}
    (hinclude : ¬ (Lookahead.kind? state.rest 0 == some .includeDirective) = true)
    (hmade : state.Made true [])
    (hrun : topLevelDeclaration (.upTo fuel) 0 state = .ok last) : Makes true [] state last := by
  have htwin : Twin (.upTo fuel) (.upTo fuel) 0 .statement Unknown true [] []
      (ifAt ";" bump <|
        ifAhead Lookahead.isCompilerExtension (compilerExtension (.upTo fuel) 0) <|
        ifAhead (Lookahead.isAny · ["typealias", "typedef"]) (typeAlias (.upTo fuel) 0) <|
        choose fun rest => declarationOf (.upTo fuel) 0 (Lookahead.keyword rest)) _ :=
    .ifAt (.bumpAt .ends_statement) <|
    .ifAhead Steady.isCompilerExtension Ended.compilerExtension.twin <|
    .ifAhead (Steady.isAny _) Ended.typeAlias.twin <|
    .chooseBy Steady.keyword fun word => .declarationOf word
  unfold topLevelDeclaration at hrun
  rw [ifAhead, if_neg hinclude] at hrun
  exact htwin.makes (Grammar.upTo_advances fuel 0) (Grammar.upTo_builds fuel 0)
    (Grammar.upTo_making fuel 0) (fun _ => by decide) hmade trivial hrun

/-- A declaration takes some tokens and reports the foreign ones among them. -/
theorem Point.reports_declare (h : Point chars past state) (fuel : Nat) (hne : state.rest ≠ []) :
    ∃ taken nodes, state.stream = taken ++ (Parse.declare (.upTo fuel) state).stream ∧
      (Parse.declare (.upTo fuel) state).built.reverse = state.built.reverse ++ nodes ∧
      Reports chars nodes taken := by
  obtain ⟨here, -, hready⟩ := h.ready
  obtain ⟨leading, hleading, hbuilt, htrivia⟩ := exists_flush state
  obtain ⟨node, -, hapart⟩ := declare_apart fuel hne
  have hmade : state.flush.opened.Made true [] :=
    ⟨.nil, fun token hmem _ _ => isForeign_of_mem_trivia hready token hmem⟩
  have hmem : ∀ {tokens rest}, state.flush.opened.stream = tokens ++ rest →
      tokens ⊆ tokenize chars := fun hsplit token htoken =>
    h.mem_tokenize (hsplit ▸ List.mem_append_left _ htoken)
  -- What is made from an empty node on is reported; the trivia before it is not foreign.
  obtain ⟨taken, hstream, hreports⟩ : ∃ taken, state.flush.opened.stream
      = taken ++ (Parse.declare (.upTo fuel) state.flush.opened).stream ∧
        Reports chars (Parse.declare (.upTo fuel) state.flush.opened).built.reverse taken := by
    have hmakes : ∀ {last}, Makes true [] state.flush.opened last →
        ∃ taken, state.flush.opened.stream = taken ++ last.stream ∧
          Reports chars last.built.reverse taken := by
      rintro last ⟨taken, hstream, ⟨hyields, -⟩, -⟩
      exact ⟨taken, hstream, reports_of_yields hyields (hmem hstream)⟩
    cases hrun : Production.topLevelDeclaration (.upTo fuel) 0 state.flush.opened with
    | error stop =>
      rw [Parse.declare, hrun]
      exact hmakes (makes_recovery _ hmade)
    | ok last =>
      rw [declare_of_ok fuel hrun]
      by_cases hinclude :
          (Lookahead.kind? state.flush.opened.rest 0 == some .includeDirective) = true
      · rw [Production.topLevelDeclaration, Production.ifAhead, if_pos hinclude] at hrun
        exact h.reports_include hinclude hrun
      · exact hmakes (otherDeclaration_makes hinclude hmade hrun)
  refine ⟨leading ++ taken, leading.map triviaNode ++
    (Parse.declare (.upTo fuel) state.flush.opened).built.reverse, ?_, ?_, ?_⟩
  · rw [hleading, hapart, List.append_assoc]
    exact congrArg _ hstream
  · rw [hapart, onto, List.reverse_append, hbuilt, List.append_assoc]
  · obtain ⟨_, -, hready'⟩ := h.parsed
    refine .append (reports_of_not_isForeign fun token htoken => ?_) hreports
    exact isForeign_of_mem_trivia hready' token (htrivia token htoken)

/-- The declarations of a text report the foreign tokens that they take. -/
theorem Point.reports_declareAll (h : Point chars past state)
    (hreports : Reports chars state.built.reverse past) (steps fuel : Nat) :
    ∃ past', Point chars past' (declareAll (.upTo steps) fuel state) ∧
      Reports chars (declareAll (.upTo steps) fuel state).built.reverse past' := by
  induction fuel generalizing past state with
  | zero => exact ⟨past, h, hreports⟩
  | succ fuel ih =>
    rw [declareAll]
    split
    · exact ⟨past, h, hreports⟩
    · rename_i hend
      have hne : state.rest ≠ [] := by simpa [ParseState.atEnd] using hend
      obtain ⟨taken, hnext⟩ := h.declare steps hne
      obtain ⟨taken', nodes, hstream, hbuilt, htaken⟩ := h.reports_declare steps hne
      have hsame : taken' = taken := by
        have htokens := hnext.stream
        rw [h.stream, hstream, List.append_assoc] at htokens
        exact List.append_cancel_right (List.append_cancel_left htokens)
      refine ih hnext ?_
      rw [hbuilt, ← hsame]
      exact hreports.append htaken

/-- The trivia at the end of a text is not foreign. -/
theorem Point.reports_flush (h : Point chars past state)
    (hreports : Reports chars state.built.reverse past) (hend : state.flush.stream = []) :
    Reports chars state.flush.built.reverse (tokenize chars) := by
  obtain ⟨leading, hstream, hbuilt, htrivia⟩ := exists_flush state
  obtain ⟨_, -, hready⟩ := h.parsed
  rw [h.stream, hbuilt, hstream, hend, List.append_nil]
  refine hreports.append (reports_of_not_isForeign fun token htoken => ?_)
  exact isForeign_of_mem_trivia hready token (htrivia token htoken)

/-- All foreign tokens of a text are reported below the root of its tree. -/
theorem reports_children (chars : List Char) :
    Reports chars (parse chars none).root.children (tokenize chars) := by
  have hnone : Reports chars (initial chars).built.reverse [] := fun _ hmem => by cases hmem
  obtain ⟨past, hpoint, hreports⟩ := (Point.initial chars).reports_declareAll hnone
    (Grammar.fuelFor (initial chars).rest.length) (initial chars).rest.length
  rw [parse_none_root]
  exact hpoint.reports_flush hreports (final_stream chars)

end Parse

/-! ## Diagnostics -/

/-- Every character that no rule of the lexer takes, and every include directive without its path,
is right below an error, and a diagnostic stands over it. -/
theorem parse_reportsForeign {chars : List Char} {token : Token} (hmem : token ∈ tokenize chars)
    (h : token.kind = .unknown ∨
      token.kind = .includeDirective ∧ ¬ token.Includes (Token.plain (tokenize chars))) :
    (∃ error ∈ (parse chars none).root.errors,
      .leaf .token token.start token.stop ∈ error.children) ∧
    ∃ diagnostic ∈ Symbols.diagnostics (.ofChars chars) (parse chars none),
      diagnostic.range.start ≤ (SourceText.ofChars chars).positionAt token.start.byte ∧
      (SourceText.ofChars chars).positionAt token.stop.byte ≤ diagnostic.range.stop := by
  obtain ⟨hforeign, hincludes⟩ : token.isForeign = true ∧
      ¬ token.Includes (Token.plain (tokenize chars)) := by
    rcases h with hkind | ⟨hkind, hincludes⟩
    · refine ⟨by simp [Token.isForeign, hkind], ?_⟩
      rintro ⟨_, _, _, _, _, -, hdirective, -⟩
      rw [hkind] at hdirective
      cases hdirective
    · exact ⟨by simp [Token.isForeign, hkind], hincludes⟩
  obtain ⟨error, herror, hkind, hchild⟩ :=
    (Parse.reports_children chars token hmem hforeign).resolve_right hincludes
  have hvisible : error ∈ (parse chars none).root.visible :=
    Node.mem_visible_of_below (by simp [Parse.root_kind]) herror
  have herrors : error ∈ (parse chars none).root.errors :=
    List.mem_filter.mpr ⟨hvisible, by simp [hkind]⟩
  refine ⟨⟨error, herrors, hchild⟩, _, List.mem_map_of_mem herrors, ?_⟩
  -- The error stands around its children, and places further on have later positions.
  rw [errors_parse] at herrors
  have hbelow := (List.mem_filter.mp herrors).1
  have haround := (Parse.spans_of_mem hbelow).around _ hchild
  obtain ⟨hstart, hstop⟩ := Parse.ends_of_mem hbelow
  obtain ⟨hstart', hstop'⟩ := Parse.ends_of_mem (Node.child_mem_descendants hbelow hchild)
  exact ⟨hstart.positionAt_le hstart' haround.1, hstop'.positionAt_le hstop haround.2⟩

theorem parse_reportsForeign_dollar :
    ∃ token ∈ tokenize "int $;".toList, token.kind = .unknown ∧
      (∃ error ∈ (parse "int $;".toList none).root.errors,
        .leaf .token token.start token.stop ∈ error.children) ∧
      ∃ diagnostic ∈ Symbols.diagnostics (.ofChars "int $;".toList) (parse "int $;".toList none),
        diagnostic.range.start
            ≤ (SourceText.ofChars "int $;".toList).positionAt token.start.byte ∧
          (SourceText.ofChars "int $;".toList).positionAt token.stop.byte
            ≤ diagnostic.range.stop := by
  obtain ⟨token, hmem, hkind⟩ :
      ∃ token ∈ tokenize "int $;".toList, token.kind = .unknown := by decide +kernel
  exact ⟨token, hmem, hkind, parse_reportsForeign hmem (.inl hkind)⟩

end Azsl
