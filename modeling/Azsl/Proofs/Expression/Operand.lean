/-
Azsl.Proofs.Expression.Operand — parsing names, numbers and what stands behind an operand.

An expression in words is parsed as an operand up to its last suffix, whatever follows it
(`Expr.Operand`). A `(` in front is tried as a cast first; that fails because what stands in
parentheses is never a type with array sizes (`Expr.Probed`).
-/
import Azsl.Proofs.Expression.Reading
import Azsl.Proofs.Expression.Words
import Azsl.Proofs.Grammar.Whole

namespace Azsl

open ParseState (facing)
open Relation (ReflTransGen)

variable {chars : List Char} {textEnd : Location} {built : List Node} {token : Token}
  {tokens rest : List Token} {depth : Nat}

/-! ## What comes behind an operand -/

/-- Punctuation but `::`, and a `<` only with an operand behind it. -/
def Behind (chars : List Char) (tokens : List Token) : Prop :=
  ∃ token rest, tokens = token :: rest ∧ token.kind = .punct ∧ token.is "::" = false ∧
    (token.is "<" = true → OpensAt chars rest)

theorem Token.Spells.behind {word : String} (h : token.Spells chars .punct word)
    (hcolons : word ≠ "::") (hless : word ≠ "<") (rest : List Token) :
    Behind chars (token :: rest) := by
  refine ⟨token, rest, rfl, h.kind_eq, ?_, fun h' => ?_⟩
  · rw [h.is_eq, beq_eq_false_iff_ne]
    exact hcolons
  · rw [h.is_eq, beq_iff_eq] at h'
    exact absurd h' hless

theorem Operates.behind {word : String} {operator : Infix} {more : List Token}
    (h : Operates chars word operator token more) (hrest : OpensAt chars rest) :
    Behind chars (token :: (more ++ rest)) := by
  refine ⟨token, more ++ rest, rfl, h.kind_eq, h.others _ (by decide), fun hless => ?_⟩
  by_cases hmore : more = []
  · rw [hmore]
    exact hrest
  · rw [h.joined hmore] at hless
    cases hless

/-! ## Names and types -/

theorem isName_of_spells {name : Identifier} (h : token.Spells chars .word name.text)
    (input : List Lexeme) : Lookahead.isName (⟨[], token⟩ :: input) 0 = true := by
  simp [Lookahead.isName, h.kind_eq, h.text_eq, name.unreserved]

theorem is_eq_false_of_name {name : Identifier} (h : token.Spells chars .word name.text)
    {text : String} (htext : (Scan.nextToken text.toList).1 ≠ .word) : token.is text = false := by
  rw [h.is_eq_of_word, beq_eq_false_iff_ne]
  exact name.text_ne htext

theorem qualifiedLength_name {name : Identifier} (h : token.Spells chars .word name.text)
    (hbehind : Behind chars rest) :
    Lookahead.qualifiedLength (Lexeme.row (token :: rest)) = 1 := by
  obtain ⟨next, others, rfl, -, hcolons, -⟩ := hbehind
  have hfirst : token.is "::" = false := is_eq_false_of_name h (by decide)
  simp [Lookahead.qualifiedLength, Lookahead.chainLength, hfirst, isName_of_spells h, hcolons]

namespace Production

theorem identifier_name {name : Identifier} (h : token.Spells chars .word name.text) :
    identifier (facing textEnd built (token :: rest))
      = .ok (facing textEnd (.leaf .identifier token.start token.stop :: built) rest) := by
  rw [identifier, seq_ok (guard_ok (isName_of_spells h _))]
  exact bumpAs_facing .identifier

theorem idExpression_name {name : Identifier} (h : token.Spells chars .word name.text)
    (hbehind : Behind chars rest) :
    idExpression (facing textEnd built (token :: rest))
      = .ok (facing textEnd
          (.ofChildren .idExpression [.leaf .identifier token.start token.stop] :: built) rest) := by
  have hfirst : token.is "::" = false := is_eq_false_of_name h (by decide)
  have hoptional : optional "::" (facing textEnd [] (token :: rest))
      = .ok (facing textEnd [] (token :: rest)) := if_neg (by simp [hfirst])
  have hbody : (optional "::" >=> identifier >=> furtherNames 0)
      (facing textEnd [] (token :: rest))
      = .ok (facing textEnd [.leaf .identifier token.start token.stop] rest) := by
    rw [seq_ok hoptional, seq_ok (identifier_name h)]
    rfl
  show qualifiedName (Lookahead.qualifiedLength _) _ = _
  rw [ParseState.facing_rest, qualifiedLength_name h hbehind]
  exact node_facing .idExpression hbody

/-- No name starts with anything but a word. -/
theorem idExpression_mismatch (h : token.Opens chars) (hkind : token.kind ≠ .word) :
    idExpression (facing textEnd built (token :: rest)) = .error .mismatch := by
  have hname : ∀ input, Lookahead.isName (⟨[], token⟩ :: input) 0 = false := by
    simp [Lookahead.isName, hkind]
  have hcolons : token.is "::" = false :=
    h.is_eq_false (by decide) (by decide) (by decide)
  have hlength : Lookahead.qualifiedLength (Lexeme.row (token :: rest)) = 0 := by
    cases rest with
    | nil => simp [Lookahead.qualifiedLength, Lookahead.chainLength, hcolons, hname]
    | cons next others => simp [Lookahead.qualifiedLength, Lookahead.chainLength, hcolons, hname]
  show qualifiedName (Lookahead.qualifiedLength _) _ = _
  rw [ParseState.facing_rest, hlength]
  rfl

/-- No scalar type starts an operand. -/
theorem scalarType_mismatch (h : token.Opens chars) :
    scalarType (facing textEnd built (token :: rest)) = .error .mismatch := by
  have hunsigned : Lookahead.isUnsignedInt (Lexeme.row (token :: rest)) = false := by
    simp [Lookahead.isUnsignedInt, h.is_reserved (by decide : Keyword.isReserved "unsigned" = true)]
  rw [scalarType, ifAhead_neg hunsigned]
  refine seq_error (if_neg ?_)
  simp [h.category?_eq_none]

theorem whole_type : Grammar.whole .type depth = type Grammar.whole depth :=
  Grammar.whole_eq_step .type depth

/-- No definition of a type starts an operand. -/
theorem isAny_structured (h : token.Opens chars) :
    Lookahead.isAny (Lexeme.row (token :: rest)) Keyword.structuredKeywords = false := by
  have hreserved : ∀ text ∈ Keyword.structuredKeywords, Keyword.isReserved text = true := by decide
  rw [Lexeme.row_cons, Lookahead.isAny_cons, List.any_eq_false]
  intro text hmem
  rw [h.is_reserved (hreserved text hmem)]
  exact Bool.false_ne_true

/-- A type starts with a word. -/
theorem type_mismatch (h : token.Opens chars) (hkind : token.kind ≠ .word) :
    Grammar.whole .type depth (facing textEnd built (token :: rest)) = .error .mismatch := by
  rw [whole_type, type, Grammar.nested]
  split
  · rfl
  · refine node_facing_error _ ?_
    have htypeof : token.is "typeof" = false := h.is_reserved (by decide)
    have hpredefined : Lookahead.isPredefinedType (Lexeme.row (token :: rest)) = false := by
      simp [Lookahead.isPredefinedType, hkind]
    rw [ifAt, ifAhead_neg htypeof, ifAhead_neg hpredefined]
    refine node_facing_error _ ?_
    rw [ifAhead_neg (isAny_structured h)]
    exact idExpression_mismatch h hkind

/-- A type that starts like an operand is a name, and no built-in one. -/
theorem type_name {name : Identifier} (h : token.Spells chars .word name.text)
    (hbehind : Behind chars rest) :
    Grammar.whole .type depth (facing textEnd built (token :: rest)) = .error .mismatch ∨
      ∃ node, Grammar.whole .type depth (facing textEnd built (token :: rest))
        = .ok (facing textEnd (node :: built) rest) := by
  have hopens : token.Opens chars := .name name h
  have htypeof : token.is "typeof" = false := hopens.is_reserved (by decide)
  rw [whole_type, type, Grammar.nested]
  split
  · exact .inl rfl
  · rw [ifAt]
    by_cases hpredefined : Lookahead.isPredefinedType (Lexeme.row (token :: rest)) = true
    · -- The word is `matrix`, and what stands behind its `<` is no scalar type.
      left
      have hunsigned : token.is "unsigned" = false := hopens.is_reserved (by decide)
      obtain ⟨next, others, rfl, hpunct, -, hoperand⟩ := hbehind
      obtain ⟨hmatrix, hless⟩ : name.text = "matrix" ∧ next.is "<" = true := by
        simpa [Lookahead.isPredefinedType, Lookahead.isUnsignedInt, h.kind_eq, h.text_eq,
          name.category?_eq_none, hunsigned] using hpredefined
      obtain ⟨operand, behind, rfl, hfirst⟩ := hoperand hless
      refine node_facing_error _ ?_
      rw [ifAhead_neg htypeof, ifAhead_pos hpredefined]
      refine node_facing_error _ ?_
      have hword : Lookahead.text (Lexeme.row (token :: next :: operand :: behind)) 0 = "matrix" :=
        h.text_eq.trans hmatrix
      show typeOfWord _ _ (Lookahead.text _ 0) _ = _
      rw [ParseState.facing_rest, hword, typeOfWord, if_pos rfl]
      refine node_facing_error _ ?_
      rw [seq_ok bump_facing, templateArguments, seq_ok (expect_facing hless)]
      exact seq_error (seq_error (scalarType_mismatch hfirst))
    · right
      have hname : idExpression (facing textEnd [] (token :: rest)) = .ok _ :=
        idExpression_name h hbehind
      have huser : userDefinedType Grammar.whole (depth + 1) (facing textEnd [] (token :: rest))
          = .ok _ := node_facing _ ((ifAhead_neg (isAny_structured hopens)).trans hname)
      exact ⟨_, node_facing _ ((ifAhead_neg htypeof).trans
        ((ifAhead_neg (Bool.eq_false_iff.mpr hpredefined)).trans huser))⟩

/-! ## Atoms -/

theorem primary_name {name : Identifier} (h : token.Spells chars .word name.text)
    (hbehind : Behind chars rest) :
    primary Grammar.whole depth (facing textEnd built (token :: rest))
      = .ok (facing textEnd (.ofChildren .expression
          [.ofChildren .idExpression [.leaf .identifier token.start token.stop]] :: built) rest) := by
  have hopens : token.Opens chars := .name name h
  have hunsigned : token.is "unsigned" = false := hopens.is_reserved (by decide)
  have htrue : token.is "true" = false := hopens.is_reserved (by decide)
  have hfalse : token.is "false" = false := hopens.is_reserved (by decide)
  have hliteral : Lookahead.isLiteral (Lexeme.row (token :: rest)) = false := by
    simp [Lookahead.isLiteral, h.kind_eq, htrue, hfalse]
  have hbracket : token.is "(" = false := is_eq_false_of_name h (by decide)
  have hconstructor : Lookahead.isConstructor (Lexeme.row (token :: rest)) = false := by
    simp [Lookahead.isConstructor, hunsigned, hopens.category?_eq_none]
  have hname : (Lookahead.isName (Lexeme.row (token :: rest)) 0
      || Lookahead.isAt (Lexeme.row (token :: rest)) 0 "::") = true := by
    rw [Lexeme.row_cons, isName_of_spells h, Bool.true_or]
  have hid : idExpression (facing textEnd [] (token :: rest)) = .ok _ := idExpression_name h hbehind
  rw [primary, ifAhead_neg hliteral, ifAt, ifAhead_neg hbracket, ifAhead_neg hconstructor,
    ifAhead_pos hname]
  exact node_facing _ hid

theorem primary_number {numeral : Numeral} {kind : TokenKind}
    (h : token.Spells chars kind numeral.text)
    (hkind : kind = .integerLiteral ∨ kind = .floatLiteral) :
    ∃ node, primary Grammar.whole depth (facing textEnd built (token :: rest))
      = .ok (facing textEnd (node :: built) rest) ∧ Stands chars (.number numeral) node := by
  have hliteral : Lookahead.isLiteral (Lexeme.row (token :: rest)) = true := by
    rcases hkind with rfl | rfl <;> simp [Lookahead.isLiteral, h.kind_eq]
  rw [primary, ifAhead_pos hliteral]
  obtain ⟨leaf, hleaf, hrun⟩ : ∃ leaf : NodeKind, leaf ≠ .error ∧
      literalOf (some token.kind) = bumpAs leaf := by
    rw [h.kind_eq]
    rcases hkind with rfl | rfl
    · exact ⟨.integerLiteral, by decide, rfl⟩
    · exact ⟨.floatLiteral, by decide, rfl⟩
  have hchoose : choose (fun input => literalOf (Lookahead.kind? input 0))
      (facing textEnd [] (token :: rest)) = .ok (facing textEnd [.leaf leaf token.start token.stop] rest) := by
    show literalOf (some token.kind) _ = _
    rw [hrun]
    exact bumpAs_facing leaf
  exact ⟨_, node_facing _ (node_facing _ hchoose), .number hleaf h.source⟩

end Production

/-! ## Operands -/

/-- Something that stands behind an operand is ahead. -/
def suffixAhead (input : List Lexeme) : Bool :=
  Lookahead.isAny input [".", "[", "(", "++", "--"]

/-- What is behind an operand belongs to something else: to an operator that binds less tightly
than `least`, or to a bracket around. -/
structure Ends (chars : List Char) (least : Nat) (tokens : List Token) : Prop where
  behind : Behind chars tokens
  solid : suffixAhead (Lexeme.row tokens) = false
  loose : Infix.binds least (Lexeme.row tokens) = false

theorem Token.Spells.ends {word : String} (h : token.Spells chars .punct word)
    (hword : word ∈ [")", "]", ",", ":", ";"]) (least : Nat) (rest : List Token) :
    Ends chars least (token :: rest) := by
  have htable : ∀ word ∈ [")", "]", ",", ":", ";"], word ≠ "::" ∧ word ≠ "<" ∧ word ≠ ">" ∧
      word ∉ [".", "[", "(", "++", "--"] ∧ Infix.ofText? word = none := by decide
  obtain ⟨hcolons, hless, hgreater, hsuffix, hinfix⟩ := htable word hword
  refine ⟨h.behind hcolons hless rest, ?_, ?_⟩
  · rw [suffixAhead, Lexeme.row_cons, Lookahead.isAny_cons, List.any_eq_false]
    intro text hmem
    rw [h.is_eq, beq_iff_eq]
    rintro rfl
    exact hsuffix hmem
  · rw [Infix.binds, Infix.ahead?_of_ne h.kind_eq (by rwa [h.text_eq]), h.text_eq, hinfix]
    rfl

theorem Operates.ends {word : String} {operator : Infix} {more : List Token} {least : Nat}
    (h : Operates chars word operator token more) (hrest : OpensAt chars rest)
    (hlt : operator.power < least) : Ends chars least (token :: (more ++ rest)) := by
  refine ⟨h.behind hrest, ?_, ?_⟩
  · have htable : ∀ text ∈ [".", "[", "(", "++", "--"], text ∈ closers := by decide
    rw [suffixAhead, Lexeme.row_cons, Lookahead.isAny_cons, List.any_eq_false]
    intro text hmem
    rw [h.others text (htable text hmem)]
    exact Bool.false_ne_true
  · rw [Infix.binds, h.ahead hrest]
    simpa using hlt

namespace Production

/-- One more suffix around what is built. -/
def suffix (depth : Nat) : Production :=
  enclose .expression <|
    ifAt "." (bump >=> idExpression) <|
    ifAt "[" (bump >=> Grammar.whole (.expression 0) depth >=> expect "]") <|
    ifAt "(" (argumentList Grammar.whole depth) <|
    tokenNode .postfixUnaryOperator

theorem postfixes_eq : postfixes Grammar.whole depth = whileAhead suffixAhead (suffix depth) := rfl

end Production

open Production

namespace Expr

/-- In words, an expression is parsed as an operand that more suffixes may follow. Operators
before it and casts do not come into it. -/
structure Operand (chars : List Char) (e : Expr) (words : List String) (levels : Nat) : Prop where
  unsigned : ∀ {tokens rest : List Token}, Spelt chars words tokens →
    Lookahead.isAny (Lexeme.row (tokens ++ rest)) ["+", "-", "!", "~", "++", "--"] = false
  uncast : ∀ {textEnd : Location} {built : List Node} {depth : Nat} {tokens rest : List Token},
    depth + levels ≤ Grammar.maxDepth → Spelt chars words tokens →
    Lookahead.isAt (Lexeme.row (tokens ++ rest)) 0 "(" = true →
    cast Grammar.whole (depth + 1) (facing textEnd built (tokens ++ rest)) = .error .mismatch
  run : ∀ {textEnd : Location} {depth : Nat} {tokens rest : List Token},
    depth + levels ≤ Grammar.maxDepth → Spelt chars words tokens → Behind chars rest →
    ∃ between node, primary Grammar.whole (depth + 1) (facing textEnd [] (tokens ++ rest))
        = .ok between ∧
      ReflTransGen (TurnsTo suffixAhead (suffix (depth + 1))) between (facing textEnd [node] rest) ∧
      Stands chars e node

/-- With some more words behind it, one expression becomes another. -/
structure Suffix (chars : List Char) (e e' : Expr) (words : List String) (levels : Nat) :
    Prop where
  behind : ∀ {tokens rest : List Token}, Spelt chars words tokens → Behind chars (tokens ++ rest)
  turn : ∀ {textEnd : Location} {depth : Nat} {node : Node} {tokens rest : List Token},
    depth + levels ≤ Grammar.maxDepth → Spelt chars words tokens → Behind chars rest →
    Stands chars e node →
    ∃ node', TurnsTo suffixAhead (suffix (depth + 1)) (facing textEnd [node] (tokens ++ rest))
      (facing textEnd [node'] rest) ∧ Stands chars e' node'

theorem Operand.extend {e e' : Expr} {words others : List String} {levels levels' : Nat}
    (h : Operand chars e words levels) (hsuffix : Suffix chars e e' others levels') :
    Operand chars e' (words ++ others) (max levels levels') where
  unsigned htokens := by
    obtain ⟨front, back, rfl, hfront, -⟩ := htokens.append
    rw [List.append_assoc]
    exact h.unsigned hfront
  uncast {textEnd built depth tokens rest} hdepth htokens hbracket := by
    obtain ⟨front, back, rfl, hfront, -⟩ := htokens.append
    have hdepth' : depth + levels ≤ Grammar.maxDepth := by omega
    rw [List.append_assoc] at hbracket ⊢
    exact h.uncast hdepth' hfront hbracket
  run {textEnd depth tokens rest} hdepth htokens hrest := by
    obtain ⟨front, back, rfl, hfront, hback⟩ := htokens.append
    have hdepth' : depth + levels ≤ Grammar.maxDepth := by omega
    have hdepth'' : depth + levels' ≤ Grammar.maxDepth := by omega
    rw [List.append_assoc]
    obtain ⟨between, node, hprimary, hturns, hnode⟩ :=
      h.run hdepth' hfront (hsuffix.behind hback)
    obtain ⟨node', hturn, hnode'⟩ := hsuffix.turn hdepth'' hback hrest hnode
    exact ⟨between, node', hprimary, hturns.tail hturn, hnode'⟩

theorem operand_name (identifier : Identifier) :
    Operand chars (.name identifier) [identifier.text] 1 where
  unsigned {tokens rest} htokens := by
    obtain ⟨token, _, rfl, htoken, -⟩ := htokens.name
    have hsigns : ∀ text ∈ ["+", "-", "!", "~", "++", "--"],
        (Scan.nextToken text.toList).1 ≠ .word := by decide
    rw [List.cons_append, Lexeme.row_cons, Lookahead.isAny_cons, List.any_eq_false]
    intro text hmem
    rw [is_eq_false_of_name htoken (hsigns text hmem)]
    exact Bool.false_ne_true
  uncast {textEnd built depth tokens rest} _ htokens hbracket := by
    obtain ⟨token, _, rfl, htoken, -⟩ := htokens.name
    have hnot : token.is "(" = false := is_eq_false_of_name htoken (by decide)
    exact absurd hbracket (by simp [hnot])
  run {textEnd depth tokens rest} _ htokens hrest := by
    obtain ⟨token, _, rfl, htoken, htokens⟩ := htokens.name
    cases htokens
    exact ⟨_, _, primary_name htoken hrest, .refl, .name htoken.source⟩

theorem operand_number (numeral : Numeral) :
    Operand chars (.number numeral) [numeral.text] 1 := by
  have hnot : ∀ {tokens rest : List Token} {text : String}, Spelt chars [numeral.text] tokens →
      Lookahead.isAt (Lexeme.row (tokens ++ rest)) 0 text = false := by
    intro tokens rest text htokens
    obtain ⟨token, _, kind, rfl, htoken, hkind, -⟩ := htokens.number
    rcases hkind with rfl | rfl <;> simp [Token.is, htoken.kind_eq]
  constructor
  · intro tokens rest htokens
    rw [Lookahead.isAny, List.any_eq_false]
    intro text _
    rw [hnot htokens]
    exact Bool.false_ne_true
  · intro textEnd built depth tokens rest _ htokens hbracket
    rw [hnot htokens] at hbracket
    cases hbracket
  · intro textEnd depth tokens rest _ htokens hrest
    obtain ⟨token, _, kind, rfl, htoken, hkind, htokens⟩ := htokens.number
    cases htokens
    obtain ⟨node, hnode, hstands⟩ := primary_number htoken hkind
    exact ⟨_, node, hnode, .refl, hstands⟩

/-! ## Suffixes -/

variable {e : Expr}

/-- A mark that starts a suffix. -/
theorem suffixAhead_of_spells {word : String} (h : token.Spells chars .punct word)
    (hword : word ∈ [".", "[", "(", "++", "--"]) :
    suffixAhead (Lexeme.row (token :: rest)) = true := by
  rw [suffixAhead, Lexeme.row_cons, Lookahead.isAny_cons, List.any_eq_true]
  exact ⟨word, hword, by rw [h.is_eq, beq_self_eq_true]⟩

theorem suffix_member (e : Expr) (field : Identifier) :
    Suffix chars e (.member e field) [".", field.text] 0 where
  behind htokens := by
    obtain ⟨point, _, rfl, hpoint, -⟩ := htokens.mark (by decide)
    exact hpoint.behind (by decide) (by decide) _
  turn {textEnd depth node tokens rest} hdepth htokens hrest hnode := by
    obtain ⟨point, _, rfl, hpoint, htokens⟩ := htokens.mark (by decide)
    obtain ⟨token, _, rfl, htoken, htokens⟩ := htokens.name
    cases htokens
    have hname : idExpression (facing textEnd [.leaf .token point.start point.stop, node]
        (token :: rest)) = .ok _ := idExpression_name htoken hrest
    have his : point.is "." = true := by rw [hpoint.is_eq]; rfl
    have hbody : suffix (depth + 1) (facing textEnd [node] (point :: token :: rest)) = .ok _ :=
      enclose_facing .expression ((ifAhead_pos his).trans ((seq_ok bump_facing).trans hname))
    have hless : (Lexeme.row rest).length < (Lexeme.row (point :: token :: rest)).length := by
      rw [Lexeme.length_row, Lexeme.length_row, List.length_cons, List.length_cons]
      omega
    exact ⟨_, ⟨suffixAhead_of_spells hpoint (by decide), hbody, hless⟩,
      hnode.member htoken.source⟩

theorem suffix_stepped (e : Expr) (operator : Step) :
    Suffix chars e (.stepped e operator) [operator.text] 0 := by
  have htable : ∀ text ∈ ["++", "--"], text ∈ marks ∧ text ∈ [".", "[", "(", "++", "--"] ∧
      text ≠ "." ∧ text ≠ "[" ∧ text ≠ "(" ∧ text ≠ "::" ∧ text ≠ "<" := by decide
  obtain ⟨hmark, hsuffix, hpoint, hsquare, hround, hcolons, hless⟩ :=
    htable operator.text operator.property
  constructor
  · intro tokens rest htokens
    obtain ⟨token, _, rfl, htoken, -⟩ := htokens.mark hmark
    exact htoken.behind hcolons hless _
  · intro textEnd depth node tokens rest hdepth htokens hrest hnode
    obtain ⟨token, _, rfl, htoken, htokens⟩ := htokens.mark hmark
    cases htokens
    have hne : ∀ {text : String}, operator.text ≠ text → token.is text = false := by
      intro text hne
      rw [htoken.is_eq, beq_eq_false_iff_ne]
      exact hne
    have hstep : tokenNode .postfixUnaryOperator (facing textEnd [node] (token :: rest)) = .ok _ :=
      node_facing _ bump_facing
    have hbody : suffix (depth + 1) (facing textEnd [node] (token :: rest)) = .ok _ :=
      enclose_facing .expression ((ifAhead_neg (hne hpoint)).trans
        ((ifAhead_neg (hne hsquare)).trans ((ifAhead_neg (hne hround)).trans hstep)))
    exact ⟨_, ⟨suffixAhead_of_spells htoken hsuffix, hbody, by simp⟩, hnode.stepped htoken.source⟩

/-- In words, an expression is parsed as one whose operators all have at least a power. -/
def Parses (chars : List Char) (e : Expr) (words : List String) (levels least : Nat) : Prop :=
  ∀ (textEnd : Location) (depth : Nat) (built : List Node) (tokens rest : List Token),
    depth + levels ≤ Grammar.maxDepth → Spelt chars words tokens → Ends chars least rest →
    ∃ node, Grammar.whole (.expression least) depth (facing textEnd built (tokens ++ rest))
      = .ok (facing textEnd (node :: built) rest) ∧ Stands chars e node

theorem suffix_index {array position : Expr}
    (hposition : Parses chars position position.words position.nesting 0) :
    Suffix chars array (.index array position) ("[" :: (position.words ++ ["]"]))
      (position.nesting + 1) where
  behind htokens := by
    obtain ⟨opening, _, rfl, hopening, -⟩ := htokens.mark (by decide)
    exact hopening.behind (by decide) (by decide) _
  turn {textEnd depth node tokens rest} hdepth htokens hrest hnode := by
    obtain ⟨opening, _, rfl, hopening, htokens⟩ := htokens.mark (by decide)
    obtain ⟨inner, _, rfl, hinner, htokens⟩ := htokens.append
    obtain ⟨closing, _, rfl, hclosing, htokens⟩ := htokens.mark (by decide)
    cases htokens
    obtain ⟨third, hthird, hstands⟩ := hposition textEnd (depth + 1)
      [.leaf .token opening.start opening.stop, node] inner (closing :: rest) (by omega) hinner
      (hclosing.ends (by decide) 0 rest)
    have hpoint : opening.is "." = false := by rw [hopening.is_eq]; rfl
    have hsquare : opening.is "[" = true := by rw [hopening.is_eq]; rfl
    have hclose : closing.is "]" = true := by rw [hclosing.is_eq]; rfl
    have hbody : suffix (depth + 1) (facing textEnd [node] (opening :: (inner ++ closing :: rest)))
        = .ok _ :=
      enclose_facing .expression ((ifAhead_neg hpoint).trans ((ifAhead_pos hsquare).trans
        ((seq_ok bump_facing).trans ((seq_ok hthird).trans (expect_facing hclose)))))
    have hrow : opening :: (inner ++ [closing]) ++ rest = opening :: (inner ++ closing :: rest) := by
      simp
    rw [hrow]
    exact ⟨_, ⟨suffixAhead_of_spells hopening (by decide), hbody, by simp; omega⟩,
      hnode.index hstands _ _⟩

/-! ## Arguments -/

theorem wordsAll_cons (first : Expr) (others : List Expr) :
    wordsAll (first :: others)
      = first.words ++ others.flatMap fun argument => "," :: argument.words := by
  induction others generalizing first with
  | nil => simp [wordsAll]
  | cons next others ih => rw [wordsAll, ih, List.flatMap_cons, List.cons_append]; simp

/-- Behind an argument comes a comma or the closing bracket. -/
theorem ends_arguments {others : List Expr} {closing : Token}
    (hclosing : closing.Spells chars .punct ")")
    (h : Spelt chars (others.flatMap fun argument => "," :: argument.words) tokens) :
    Ends chars 0 (tokens ++ closing :: rest) := by
  cases others with
  | nil =>
    cases h
    exact hclosing.ends (by decide) 0 rest
  | cons next others =>
    obtain ⟨comma, _, rfl, hcomma, -⟩ := h.mark (by decide)
    exact hcomma.ends (by decide) 0 _

/-- The arguments behind the first are taken one by one. -/
theorem turns_arguments {others : List Expr} {closing : Token}
    (hothers : ∀ argument ∈ others, Parses chars argument argument.words argument.nesting 0)
    (hdepth : ∀ argument ∈ others, depth + argument.nesting ≤ Grammar.maxDepth)
    (hclosing : closing.Spells chars .punct ")") (built : List Node)
    (h : Spelt chars (others.flatMap fun argument => "," :: argument.words) tokens) :
    ∃ nodes, ReflTransGen (TurnsTo (Lookahead.isAt · 0 ",")
        (bump >=> Grammar.whole (.expression 0) depth))
        (facing textEnd built (tokens ++ closing :: rest))
        (facing textEnd (nodes.reverse ++ built) (closing :: rest)) ∧
      readAll (.ofChars chars) nodes = some others ∧ ∀ node ∈ nodes, node.Clean := by
  induction others generalizing built tokens with
  | nil =>
    cases h
    exact ⟨[], .refl, rfl, by simp⟩
  | cons argument others ih =>
    rw [List.flatMap_cons, List.cons_append] at h
    obtain ⟨comma, _, rfl, hcomma, h⟩ := h.mark (by decide)
    obtain ⟨front, back, rfl, hfront, hback⟩ := h.append
    obtain ⟨node, hnode, hstands⟩ := hothers argument List.mem_cons_self textEnd depth
      (.leaf .token comma.start comma.stop :: built) front (back ++ closing :: rest)
      (hdepth argument List.mem_cons_self) hfront (ends_arguments hclosing hback)
    obtain ⟨nodes, hturns, hread, hclean⟩ := ih
      (fun other hmem => hothers other (List.mem_cons_of_mem _ hmem))
      (fun other hmem => hdepth other (List.mem_cons_of_mem _ hmem))
      (node :: .leaf .token comma.start comma.stop :: built) hback
    have his : comma.is "," = true := by rw [hcomma.is_eq]; rfl
    have hless : (Lexeme.row (back ++ closing :: rest)).length
        < (Lexeme.row (comma :: (front ++ (back ++ closing :: rest)))).length := by
      simp only [Lexeme.length_row, List.length_cons, List.length_append]
      omega
    have hturn : TurnsTo (Lookahead.isAt · 0 ",") (bump >=> Grammar.whole (.expression 0) depth)
        (facing textEnd built (comma :: (front ++ (back ++ closing :: rest))))
        (facing textEnd (node :: .leaf .token comma.start comma.stop :: built)
          (back ++ closing :: rest)) :=
      ⟨his, (seq_ok bump_facing).trans hnode, hless⟩
    have hrow : comma :: (front ++ back) ++ closing :: rest
        = comma :: (front ++ (back ++ closing :: rest)) := by simp
    refine ⟨.leaf .token comma.start comma.stop :: node :: nodes, ?_, ?_, ?_⟩
    · rw [hrow]
      simpa using hturns.head hturn
    · show readAll _ (node :: nodes) = _
      rw [readAll, if_pos hstands.kind_eq, hstands.read_eq, hread]
      rfl
    · simpa [hstands.clean] using hclean

theorem nesting_le_nestingAll {arguments : List Expr} {argument : Expr} (h : argument ∈ arguments) :
    argument.nesting ≤ nestingAll arguments := by
  induction arguments with
  | nil => cases h
  | cons first others ih =>
    rw [nestingAll]
    rcases List.mem_cons.mp h with rfl | h
    · exact Nat.le_max_left _ _
    · exact Nat.le_trans (ih h) (Nat.le_max_right _ _)

/-- All that stands between the brackets of a call. -/
theorem run_arguments {arguments : List Expr} {closing : Token}
    (harguments : ∀ argument ∈ arguments, Parses chars argument argument.words argument.nesting 0)
    (hdepth : depth + nestingAll arguments ≤ Grammar.maxDepth)
    (hclosing : closing.Spells chars .punct ")") (built : List Node)
    (h : Spelt chars (wordsAll arguments) tokens) :
    ∃ nodes, unlessAt ")" (commaSeparated (Grammar.whole (.expression 0) depth))
        (facing textEnd built (tokens ++ closing :: rest))
        = .ok (facing textEnd (nodes.reverse ++ built) (closing :: rest)) ∧
      readAll (.ofChars chars) nodes = some arguments ∧ ∀ node ∈ nodes, node.Clean := by
  have hclose : closing.is ")" = true := by rw [hclosing.is_eq]; rfl
  cases arguments with
  | nil =>
    cases h
    exact ⟨[], unlessAt_pos hclose, rfl, by simp⟩
  | cons argument others =>
    have hdepth' : ∀ other ∈ argument :: others, depth + other.nesting ≤ Grammar.maxDepth := by
      intro other hmem
      have := nesting_le_nestingAll hmem
      omega
    rw [wordsAll_cons] at h
    obtain ⟨front, back, rfl, hfront, hback⟩ := h.append
    obtain ⟨node, hnode, hstands⟩ := harguments argument List.mem_cons_self textEnd depth built front
      (back ++ closing :: rest) (hdepth' argument List.mem_cons_self) hfront
      (ends_arguments hclosing hback)
    obtain ⟨nodes, hturns, hread, hclean⟩ := turns_arguments
      (fun other hmem => harguments other (List.mem_cons_of_mem _ hmem))
      (fun other hmem => hdepth' other (List.mem_cons_of_mem _ hmem)) hclosing (node :: built) hback
    have hcomma : closing.is "," = false := by rw [hclosing.is_eq]; rfl
    obtain ⟨first, others', hfirst, hopens⟩ := argument.opening_words front hfront
      (back ++ closing :: rest)
    have hopen : Lookahead.isAt (Lexeme.row (front ++ (back ++ closing :: rest))) 0 ")" = false := by
      rw [hfirst]
      exact hopens.is_eq_false (by decide) (by decide) (by decide)
    refine ⟨node :: nodes, ?_, ?_, ?_⟩
    · rw [List.append_assoc]
      refine (unlessAt_neg hopen).trans ((seq_ok hnode).trans ?_)
      rw [List.reverse_cons, List.append_assoc]
      exact whileAhead_of_turns hturns hcomma
    · rw [readAll, if_pos hstands.kind_eq, hstands.read_eq, hread]
      rfl
    · simpa [hstands.clean] using hclean

theorem suffix_call {function : Expr} {arguments : List Expr}
    (harguments : ∀ argument ∈ arguments, Parses chars argument argument.words argument.nesting 0) :
    Suffix chars function (.call function arguments) ("(" :: (wordsAll arguments ++ [")"]))
      (nestingAll arguments + 1) where
  behind htokens := by
    obtain ⟨opening, _, rfl, hopening, -⟩ := htokens.mark (by decide)
    exact hopening.behind (by decide) (by decide) _
  turn {textEnd depth node tokens rest} hdepth htokens hrest hnode := by
    obtain ⟨opening, _, rfl, hopening, htokens⟩ := htokens.mark (by decide)
    obtain ⟨inner, _, rfl, hinner, htokens⟩ := htokens.append
    obtain ⟨closing, _, rfl, hclosing, htokens⟩ := htokens.mark (by decide)
    cases htokens
    have hdepth' : depth + 1 + nestingAll arguments ≤ Grammar.maxDepth := by omega
    obtain ⟨nodes, hrun, hread, hclean⟩ := run_arguments harguments hdepth' hclosing
      [.leaf .token opening.start opening.stop] hinner
    have hpoint : opening.is "." = false := by rw [hopening.is_eq]; rfl
    have hsquare : opening.is "[" = false := by rw [hopening.is_eq]; rfl
    have hround : opening.is "(" = true := by rw [hopening.is_eq]; rfl
    have hclose : closing.is ")" = true := by rw [hclosing.is_eq]; rfl
    have hlist : argumentList Grammar.whole (depth + 1)
        (facing textEnd [node] (opening :: (inner ++ closing :: rest))) = .ok _ :=
      node_facing _ ((seq_ok (expect_facing hround)).trans ((seq_ok hrun).trans (expect_facing hclose)))
    have hbody : suffix (depth + 1) (facing textEnd [node] (opening :: (inner ++ closing :: rest)))
        = .ok _ :=
      enclose_facing .expression ((ifAhead_neg hpoint).trans ((ifAhead_neg hsquare).trans
        ((ifAhead_pos hround).trans hlist)))
    have hrow : opening :: (inner ++ [closing]) ++ rest = opening :: (inner ++ closing :: rest) := by
      simp
    rw [hrow]
    refine ⟨_, ⟨suffixAhead_of_spells hopening (by decide), hbody, by simp; omega⟩,
      hnode.call ?_ ?_⟩
    · simpa [or_imp, forall_and] using hclean
    · show readAll _ ((_ :: (nodes.reverse ++ [_])).reverse) = _
      rw [List.reverse_cons, List.reverse_append, List.reverse_reverse, readAll_append_token]
      exact hread

end Expr

end Azsl
