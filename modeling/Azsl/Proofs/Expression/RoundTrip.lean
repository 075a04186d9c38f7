/-
Azsl.Proofs.Expression.RoundTrip — expressions that are written out are parsed back.

An expression is written out as the initial value of a variable, with spaces between its tokens
and parentheses only where the precedence of its operators asks for them. If its nesting stays
within the bound, the tree of that text has no error in it, and below its initial value stands
the same expression (`parse_declaration`).
-/
import Azsl.Proofs.Expression.Sound
import Azsl.Proofs.Parse.Fresh

namespace Azsl

open ParseState (facing)
open Production

/-! ## The declaration -/

section Declaration

variable {chars : List Char} {textEnd : Location} {built : List Node} {type name equal : Token}
  {rest : List Token} {depth : Nat} {declared : Identifier}

/-- The node of the type. -/
def floatType (type : Token) : Node :=
  .ofChildren .type [.ofChildren .predefinedType
    [.ofChildren .scalarType [.leaf .token type.start type.stop]]]

theorem type_float (htype : type.Spells chars .word "float") :
    Grammar.whole .type 0 (facing textEnd built (type :: rest))
      = .ok (facing textEnd (floatType type :: built) rest) := by
  have hcategory : Keyword.category? type.text = some .scalar := by
    rw [htype.text_eq]
    decide
  have htypeof : type.is "typeof" = false := by rw [htype.is_eq_of_word]; rfl
  have hunsigned : Lookahead.isUnsignedInt (Lexeme.row (type :: rest)) = false := by
    simp [Lookahead.isUnsignedInt, htype.is_eq_of_word]
  have hpredefined : Lookahead.isPredefinedType (Lexeme.row (type :: rest)) = true := by
    simp [Lookahead.isPredefinedType, htype.kind_eq, hcategory]
  have hscalar : scalarType (facing textEnd [] (type :: rest)) = .ok _ :=
    (ifAhead_neg hunsigned).trans ((seq_ok (guard_ok (by simp [hcategory]))).trans
      (node_facing .scalarType bump_facing))
  have hword : Lookahead.text (Lexeme.row (type :: rest)) 0 = "float" := htype.text_eq
  have hchoose : choose (fun input => typeOfWord Grammar.whole 1 (Lookahead.text input 0))
      (facing textEnd [] (type :: rest)) = scalarType (facing textEnd [] (type :: rest)) := by
    show typeOfWord _ _ (Lookahead.text (Lexeme.row _) 0) _ = _
    rw [hword]
    rfl
  rw [whole_type]
  exact node_facing .type ((ifAhead_neg htypeof).trans ((ifAhead_pos hpredefined).trans
    (node_facing .predefinedType (hchoose.trans hscalar))))

theorem storageFlags_float (htype : type.Spells chars .word "float") :
    storageFlags (facing textEnd built (type :: rest))
      = .ok (facing textEnd built (type :: rest)) := by
  have hflag : Keyword.isStorageFlag type.text = false := by
    rw [htype.text_eq]
    decide
  exact whileAhead_of_turns .refl (by simp [Lookahead.isStorageFlag, hflag])

/-- A name with `=` behind it is no function. -/
theorem attributedFunction_mismatch (htype : type.Spells chars .word "float")
    (hname : name.Spells chars .word declared.text) (hequal : equal.Spells chars .punct "=") :
    attributedFunction Grammar.whole 0 (facing textEnd built (type :: name :: equal :: rest))
      = .error .mismatch := by
  have hsquare : type.is "[" = false := by rw [htype.is_eq_of_word]; rfl
  have hless : equal.is "<" = false := by rw [hequal.is_eq]; rfl
  have hround : equal.is "(" = false := by rw [hequal.is_eq]; rfl
  have hattributes : attributes (facing textEnd [] (type :: name :: equal :: rest)) = .ok _ :=
    whileAhead_of_turns .refl hsquare
  have howners : ownerPath (facing textEnd [floatType type] (name :: equal :: rest))
      = .ok (facing textEnd [floatType type] (name :: equal :: rest)) := by
    show ownersOf (Lookahead.qualifiedLength (Lexeme.row _)) _ = _
    rw [qualifiedLength_name hname (hequal.behind (by decide) (by decide) rest)]
    rfl
  have hparameters : whenAt "<" (genericParameters Grammar.whole 0)
      (facing textEnd [.leaf .identifier name.start name.stop, floatType type] (equal :: rest))
      = .ok (facing textEnd [.leaf .identifier name.start name.stop, floatType type]
          (equal :: rest)) := whenAt_neg hless
  have hsignature : signature Grammar.whole 0 (facing textEnd [] (type :: name :: equal :: rest))
      = .error .mismatch :=
    node_facing_error _ ((seq_ok (storageFlags_float htype)).trans ((seq_ok (type_float htype)).trans
      ((seq_ok howners).trans ((seq_ok (identifier_name hname)).trans
        ((seq_ok hparameters).trans (seq_error (expect_facing_ne hround)))))))
  rw [attributedFunction, inScope_apply, ParseState.flush_facing, ParseState.opened_facing,
    seq_ok hattributes, nodeThen, ParseState.flush_facing, ParseState.opened_facing, hsignature]
  rfl

/-- The node of a name with an initial value. -/
def initialized (name equal : Token) (initial : Node) : Node :=
  .ofChildren .namedVariableDecorator
    [.leaf .identifier name.start name.stop,
      .ofChildren .variableInitializer
        [.leaf .token equal.start equal.stop,
          .ofChildren .standardVariableInitializer [initial]]]

/-- The node of a variable with an initial value. -/
def floatStatement (type name equal semicolon : Token) (initial : Node) : Node :=
  .ofChildren .variableDeclarationStatement
    [.ofChildren .variableDeclaration
      [floatType type, .ofChildren .variableDeclarators [initialized name equal initial]],
      .leaf .token semicolon.start semicolon.stop]

variable {semicolon : Token} {initial : Node}

theorem clean_floatStatement (h : initial.Clean) :
    (floatStatement type name equal semicolon initial).Clean := by
  simp [floatStatement, floatType, initialized, h]

theorem initial?_floatStatement (text : SourceText) (start stop : Location) :
    Expr.initial? text
        (.build .sourceFile start stop [floatStatement type name equal semicolon initial])
      = Expr.read text initial :=
  rfl

/-- Behind the name of a variable stands an expression. -/
theorem declarator_facing {tokens : List Token} (hname : name.Spells chars .word declared.text)
    (hequal : equal.Spells chars .punct "=") (hopens : OpensAt chars tokens)
    (hinitial : Grammar.whole (.expression 0) 1 (facing textEnd [] tokens)
      = .ok (facing textEnd [initial] rest)) :
    declarator Grammar.whole 0 (facing textEnd [] (name :: equal :: tokens))
      = .ok (facing textEnd [initialized name equal initial] rest) := by
  have hspelling : ∀ text, equal.is text = ("=" == text) := hequal.is_eq
  have hranks : whileAt "[" (arrayRank Grammar.whole 0)
      (facing textEnd [.leaf .identifier name.start name.stop] (equal :: tokens)) = .ok _ :=
    whileAhead_of_turns .refl (hspelling "[")
  have hsemantic : whenAhead
      (fun input => Lookahead.isAt input 0 ":" && !Lookahead.isAt input 1 "packoffset" &&
        !Lookahead.isAt input 1 "register") semantic
      (facing textEnd [.leaf .identifier name.start name.stop] (equal :: tokens)) = .ok _ :=
    whenAhead_neg (by simp [hspelling])
  have hoffset : whenAhead
      (fun input => Lookahead.isAt input 0 ":" && Lookahead.isAt input 1 "packoffset") packOffset
      (facing textEnd [.leaf .identifier name.start name.stop] (equal :: tokens)) = .ok _ :=
    whenAhead_neg (by simp [hspelling])
  have hregister : whenAhead
      (fun input => Lookahead.isAt input 0 ":" && Lookahead.isAt input 1 "register")
      registerAllocation
      (facing textEnd [.leaf .identifier name.start name.stop] (equal :: tokens)) = .ok _ :=
    whenAhead_neg (by simp [hspelling])
  have hbrace : Lookahead.isAt (Lexeme.row tokens) 0 "\x7b" = false := by
    obtain ⟨first, others, rfl, hfirst⟩ := hopens
    exact hfirst.is_eq_false (by decide) (by decide) (by decide)
  have hinitializer : Grammar.whole .initializer 0
      (facing textEnd [.leaf .token equal.start equal.stop] tokens) = .ok _ :=
    (congrFun (Grammar.whole_eq_step .initializer 0) _).trans
      (node_facing .standardVariableInitializer ((ifAhead_neg hbrace).trans hinitial))
  have hvalue : whenAhead (Lookahead.isAny · ["=", "\x7b"])
      (node .variableInitializer
        (ifAt "=" (bump >=> Grammar.whole .initializer 0) samplerBody))
      (facing textEnd [.leaf .identifier name.start name.stop] (equal :: tokens)) = .ok _ :=
    (whenAhead_pos (by simp [hspelling])).trans (node_facing .variableInitializer
      ((ifAhead_pos (hspelling "=")).trans ((seq_ok bump_facing).trans hinitializer)))
  exact node_facing .namedVariableDecorator ((seq_ok (identifier_name hname)).trans
    ((seq_ok hranks).trans ((seq_ok hsemantic).trans ((seq_ok hoffset).trans
      ((seq_ok hregister).trans hvalue)))))

theorem variableStatement_facing {tokens : List Token} (htype : type.Spells chars .word "float")
    (hname : name.Spells chars .word declared.text) (hequal : equal.Spells chars .punct "=")
    (hsemicolon : semicolon.is ";" = true) (hcomma : semicolon.is "," = false)
    (hopens : OpensAt chars tokens)
    (hinitial : Grammar.whole (.expression 0) 1 (facing textEnd [] tokens)
      = .ok (facing textEnd [initial] (semicolon :: rest))) :
    variableStatement Grammar.whole 0 (facing textEnd built (type :: name :: equal :: tokens))
      = .ok (facing textEnd (floatStatement type name equal semicolon initial :: built) rest) := by
  have hmore : whileAt "," (bump >=> declarator Grammar.whole 0)
      (facing textEnd [initialized name equal initial] (semicolon :: rest)) = .ok _ :=
    whileAhead_of_turns .refl hcomma
  have hdeclarators : commaSeparated (declarator Grammar.whole 0)
      (facing textEnd [] (name :: equal :: tokens)) = .ok _ :=
    (seq_ok (declarator_facing hname hequal hopens hinitial)).trans hmore
  have hvariables : variableDeclaration Grammar.whole 0
      (facing textEnd [] (type :: name :: equal :: tokens)) = .ok _ :=
    node_facing .variableDeclaration ((seq_ok (storageFlags_float htype)).trans
      ((seq_ok (type_float htype)).trans (node_facing .variableDeclarators hdeclarators)))
  exact node_facing .variableDeclarationStatement
    ((seq_ok hvariables).trans (expect_facing hsemicolon))

theorem topLevelDeclaration_facing {tokens : List Token} (htype : type.Spells chars .word "float")
    (hname : name.Spells chars .word declared.text) (hequal : equal.Spells chars .punct "=")
    (hsemicolon : semicolon.is ";" = true) (hcomma : semicolon.is "," = false)
    (hopens : OpensAt chars tokens)
    (hinitial : Grammar.whole (.expression 0) 1 (facing textEnd [] tokens)
      = .ok (facing textEnd [initial] (semicolon :: rest))) :
    topLevelDeclaration Grammar.whole 0 (facing textEnd built (type :: name :: equal :: tokens))
      = .ok (facing textEnd (floatStatement type name equal semicolon initial :: built) rest) := by
  have hspelling : ∀ text, type.is text = ("float" == text) := htype.is_eq_of_word
  have hinclude : (Lookahead.kind? (Lexeme.row (type :: name :: equal :: tokens)) 0
      == some .includeDirective) = false := by simp [htype.kind_eq]
  have hextension : Lookahead.isCompilerExtension (Lexeme.row (type :: name :: equal :: tokens))
      = false := by simp [Lookahead.isCompilerExtension, Keyword.compilerExtensions, hspelling]
  have halias : Lookahead.isAny (Lexeme.row (type :: name :: equal :: tokens))
      ["typealias", "typedef"] = false := by simp [hspelling]
  have hsequence : Lookahead.isAttributeSequence (Lexeme.row (type :: name :: equal :: tokens))
      = false := by simp [Lookahead.isAttributeSequence, hspelling]
  have hkeyword : Lookahead.keyword (Lexeme.row (type :: name :: equal :: tokens)) = "float" := by
    simp [Lookahead.keyword, Lookahead.afterAttributes, hspelling, htype.text_eq]
  rw [topLevelDeclaration, ifAhead_neg hinclude, ifAt, ifAhead_neg (hspelling ";"),
    ifAhead_neg hextension, ifAhead_neg halias]
  show declarationOf _ _ (Lookahead.keyword (Lexeme.row _)) _ = _
  rw [hkeyword]
  exact (orElse_mismatch (attributedFunction_mismatch htype hname hequal)).trans
    ((ifAhead_neg hsequence).trans
      (variableStatement_facing htype hname hequal hsemicolon hcomma hopens hinitial))

end Declaration

/-! ## The text -/

/-- A file that is a single declaration. -/
theorem parse_single {chars : List Char} {textEnd : Location} {tokens : List Token}
    {statement : Node} (hinitial : Parse.initial chars = facing textEnd [] tokens)
    (hne : tokens ≠ [])
    (hrun : topLevelDeclaration Grammar.whole 0 (facing textEnd [] tokens)
      = .ok (facing textEnd [statement] [])) :
    (parse chars none).root = .build .sourceFile .origin textEnd [statement] := by
  obtain ⟨more, hmore⟩ : ∃ more, tokens.length = more + 1 :=
    Nat.exists_eq_succ_of_ne_zero (by simpa using hne)
  have hdeclare : Parse.declare (.forTokens tokens.length) (facing textEnd [] tokens)
      = facing textEnd [statement] [] := by
    refine Parse.declare_of_ok _ ?_
    rw [← hrun]
    exact topLevelDeclaration_eq_whole (Nat.le_of_eq (Lexeme.length_row tokens))
  have hatEnd : (facing textEnd [] tokens).atEnd = false := by
    simpa [ParseState.atEnd, Lexeme.row] using hne
  have hdone : ∀ (grammar : Grammar) (fuel : Nat),
      Parse.declareAll grammar fuel (facing textEnd [statement] []) = facing textEnd [statement] [] := by
    intro grammar fuel
    cases fuel with
    | zero => rfl
    | succ fuel => exact if_pos rfl
  have hfinal : Parse.final chars = facing textEnd [statement] [] := by
    rw [Parse.final, hinitial, ParseState.facing_rest, Lexeme.length_row, hmore, Parse.declareAll,
      ← hmore, hatEnd, hdeclare]
    simp [hdone]
  rw [Parse.parse_none_root, hfinal]
  rfl

/-- The tokens of a text are the tokens of its words and a semicolon. -/
theorem initial_spaced {words : List String} (hne : words ≠ [])
    (hwords : ∀ word ∈ words, Separate word.toList) :
    ∃ tokens semicolon, Spelt (spaced words ++ [';']) words tokens ∧
      semicolon.Spells (spaced words ++ [';']) .punct ";" ∧
      Parse.initial (spaced words ++ [';'])
        = facing (Location.origin.advance (spaced words ++ [';'])) [] (tokens ++ [semicolon]) := by
  have hseparator : Scan.isSeparator ';' = true := by decide
  have hpieces : pieces [';'] = [⟨some .punct, [';']⟩] := by decide
  have hchars : spaced words ++ [';'] = [] ++ (spaced words ++ ';' :: []) := rfl
  obtain ⟨tokens, leads, hspelt, hplace⟩ := place_spaced hne hwords hseparator hchars true
  rw [hpieces, place_cons_some rfl] at hplace
  generalize hsemicolon : (⟨.punct, Location.origin.advance ([] ++ spaced words),
    (Location.origin.advance ([] ++ spaced words)).advance [';'], String.ofList [';'], leads⟩ : Token)
      = semicolon at hplace
  have hspells : semicolon.Spells (spaced words ++ [';']) .punct ";" := by
    rw [← hsemicolon]
    have htext : String.ofList [';'] = ";" := by decide
    exact ⟨rfl, htext, slice_advance (spaced words) [';'] []⟩
  have hplain : ∀ token ∈ tokens ++ [semicolon], token.kind.isTrivia = false := by
    rw [List.forall_mem_append, List.forall_mem_singleton, hspells.kind_eq]
    exact ⟨hspelt.plain hwords, rfl⟩
  have htokens : tokenize (spaced words ++ [';']) = tokens ++ [semicolon] := hplace
  refine ⟨tokens, semicolon, hspelt, hspells, ?_⟩
  rw [Parse.initial, htokens, Lexeme.group_row hplain]
  rfl

/-- What is parsed from words before a semicolon is the initial value of the variable that is
declared with them. -/
theorem parse_declared {words : List String} {chars : List Char} {P : Node → Prop}
    (hchars : spaced ("float" :: "v" :: "=" :: words) ++ [';'] = chars)
    (hseparate : ∀ word ∈ words, Separate word.toList) (hopening : Expr.Opening chars words)
    (hparses : ∀ (textEnd : Location) (tokens rest : List Token), Spelt chars words tokens →
      Ends chars 0 rest → ∃ node, Grammar.whole (.expression 0) 1
        (facing textEnd [] (tokens ++ rest)) = .ok (facing textEnd [node] rest) ∧ P node) :
    ∃ type name equal semicolon node, P node ∧ (parse chars none).root
      = .build .sourceFile .origin (Location.origin.advance chars)
          [floatStatement type name equal semicolon node] := by
  have hfloat : Scan.nextToken "float".toList = (.word, "float".toList.length) := by decide
  have hv : Scan.nextToken "v".toList = (.word, "v".toList.length) := by decide
  have hall : ∀ word ∈ "float" :: "v" :: "=" :: words, Separate word.toList := by
    simp only [List.forall_mem_cons]
    exact ⟨(separate_atom hfloat rfl).2, (separate_atom hv rfl).2,
      (separate_mark (by decide)).2, hseparate⟩
  obtain ⟨tokens, semicolon, hspelt, hsemicolon, hinitial⟩ :=
    initial_spaced (List.cons_ne_nil _ _) hall
  rw [hchars] at hspelt hsemicolon hinitial
  have hpieces : pieces "float".toList = [⟨some .word, "float".toList⟩] := by decide
  obtain ⟨type, _, rfl, htype, hspelt⟩ := hspelt.single hpieces
  have hdeclared : Spelt chars
      ((⟨"v", by decide, by decide⟩ : Identifier).text :: "=" :: words) _ := hspelt
  obtain ⟨name, _, rfl, hname, hspelt⟩ := hdeclared.name
  obtain ⟨equal, inner, rfl, hequal, hspelt⟩ := hspelt.mark (by decide)
  obtain ⟨node, hrun, hnode⟩ := hparses (Location.origin.advance chars) inner [semicolon] hspelt
    (hsemicolon.ends (by decide) 0 [])
  have hend : semicolon.is ";" = true := by rw [hsemicolon.is_eq]; rfl
  have hcomma : semicolon.is "," = false := by rw [hsemicolon.is_eq]; rfl
  exact ⟨type, name, equal, semicolon, node, hnode, parse_single hinitial (List.cons_ne_nil _ _)
    (topLevelDeclaration_facing htype hname hequal hend hcomma (hopening inner hspelt [semicolon])
      hrun)⟩

/-- An expression that is written out as the initial value of a variable is parsed without an
error, and below the initial value stands the same expression. -/
theorem parse_declaration (e : Expr) (h : e.nesting < Grammar.maxDepth) :
    (∀ node ∈ (parse e.declaration none).root.descendants, node.kind ≠ .error) ∧
      Expr.initial? (.ofChars e.declaration) (parse e.declaration none).root = some e := by
  obtain ⟨type, name, equal, semicolon, node, hstands, hroot⟩ := parse_declared
    (P := Stands e.declaration e) (rfl : _ = e.declaration) e.separate_words e.opening_words fun textEnd tokens rest =>
      (e.sound e.declaration).parses textEnd 1 [] tokens rest (by omega)
  rw [hroot, initial?_floatStatement]
  refine ⟨?_, hstands.read_eq⟩
  have hclean : (Node.build .sourceFile .origin (Location.origin.advance e.declaration)
      [floatStatement type name equal semicolon node]).Clean := by
    simp [clean_floatStatement hstands.clean]
  exact hclean

namespace Expr

/-- An expression with operators of most levels. -/
def shifted : Expr :=
  let letter (text : String) (word : Scan.nextToken text.toList = (.word, text.toList.length))
      (unreserved : Keyword.isReserved text = false) : Expr := .name ⟨text, word, unreserved⟩
  .assignment ⟨">>=", by decide⟩ (letter "x" (by decide) (by decide))
    (.conditional
      (.binary ⟨">", by decide⟩
        (.binary ⟨"*", by decide⟩
          (.binary ⟨"+", by decide⟩ (letter "a" (by decide) (by decide))
            (letter "b" (by decide) (by decide)))
          (.signed ⟨"-", by decide⟩
            (.stepped
              (.member
                (.index (letter "c" (by decide) (by decide)) (letter "i" (by decide) (by decide)))
                ⟨"y", by decide, by decide⟩)
              ⟨"++", by decide⟩)))
        (.number ⟨"1", by decide⟩))
      (.call (letter "f" (by decide) (by decide))
        [.number ⟨"1.5", by decide⟩, letter "z" (by decide) (by decide)])
      (letter "w" (by decide) (by decide)))

example : String.ofList shifted.declaration
    = "float v = x >>= ( a + b ) * - c [ i ] . y ++ > 1 ? f ( 1.5 , z ) : w;" := by decide

end Expr

theorem parse_declaration_shifted :
    Expr.shifted.nesting < Grammar.maxDepth ∧
      (∀ node ∈ (parse Expr.shifted.declaration none).root.descendants, node.kind ≠ .error) ∧
      Expr.initial? (.ofChars Expr.shifted.declaration) (parse Expr.shifted.declaration none).root
        = some Expr.shifted :=
  ⟨by decide, parse_declaration Expr.shifted (by decide)⟩

end Azsl
