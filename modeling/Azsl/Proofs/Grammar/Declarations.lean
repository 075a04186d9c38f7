/-
Azsl.Proofs.Grammar.Declarations — variables, functions and the definitions of types.

One lemma for each production. Declarations that end on a semicolon or a brace are `Ended`.
A function is a choice between its declaration and its definition, each of which is `Ended`.
-/
import Azsl.Grammar.Declaration
import Azsl.Proofs.Grammar.Ended
import Azsl.Proofs.Grammar.Operands

namespace Azsl

namespace Twin

open Lookahead (HasRole)

variable {grammar grammar' : Grammar} {depth : Nat} {mode : Mode} {known : List Lexeme → Prop}
  {pending : List Closer}

/-! ## What follows a declared name -/

theorem semantic : Twin grammar grammar' depth mode known true pending pending
    Production.semantic Production.semantic := by
  have hleaf : ∀ {known : List Lexeme → Prop}, Steady known fun rest =>
      Production.bumpAs (Production.semanticLeaf (SemanticKind.ofWord (Lookahead.text rest 0))) :=
    (Steady.text Passes.zero).comp fun word =>
      Production.bumpAs (Production.semanticLeaf (SemanticKind.ofWord word))
  have htaken : ∀ input, Lookahead.kind? input 0 = some .word →
      Twin grammar grammar' depth mode (· = input) true pending pending
        (Production.bumpAs (Production.semanticLeaf (SemanticKind.ofWord (Lookahead.text input 0))))
        (Production.bumpAs
          (Production.semanticLeaf (SemanticKind.ofWord (Lookahead.text input 0)))) := by
    intro input hword
    have hknown : ∀ other, other = input → Lookahead.kind? other 0 = some .word := by
      rintro other rfl
      exact hword
    refine bumpAs (.ofWord ?_ hknown) (fun other h => .of_kind (hknown other h) (by decide)) .plain
    cases SemanticKind.ofWord (Lookahead.text input 0) <;> rfl
  exact node rfl <| (word ":" rfl).followed <|
    guarded ((Steady.kind? Passes.zero).comp (· == some .word)) <|
      choose hleaf hleaf fun input hknown => htaken input (by simpa using hknown.2)

theorem packOffset : Twin grammar grammar' depth mode known true pending pending
    Production.packOffset Production.packOffset :=
  node rfl <| (word ":" rfl).followed <| (word "packoffset" rfl).followed <|
    openParen.followed <| identifier.followed <|
    (whenAt ((bumpAt .plain).followed identifier)).before closeParen

theorem registerAllocation : Twin grammar grammar' depth mode known true pending pending
    Production.registerAllocation Production.registerAllocation :=
  node rfl <| (word ":" rfl).followed <| (word "register" rfl).followed <|
    openParen.followed (identifier.followed closeParen)

/-! ## Sampler states -/

theorem enumValue {kind : NodeKind} (hkind : kind.isComposite = true) {values : List String}
    (hvalues : ∀ value ∈ values, Role.ofText value = .plain) :
    Twin grammar grammar' depth mode known true pending pending
      (Production.enumValue kind values) (Production.enumValue kind values) :=
  guarded (Steady.isAny _) (tokenNode hkind fun _ h => .of_isAny h.2 hvalues)

/-- The kinds of numbers play no part. -/
theorem hasRole_of_accepted {accepted : List TokenKind} {input : List Lexeme} {n : Nat}
    (haccepted : ∀ kind ∈ accepted, Lookahead.isPlainKind kind = true)
    (h : (Lookahead.kind? input n).any accepted.contains = true) : HasRole input n .plain := by
  cases hkind : Lookahead.kind? input n with
  | none => simp [hkind] at h
  | some kind =>
    have hmem : kind ∈ accepted := by simpa [hkind] using h
    exact .of_kind hkind (haccepted kind hmem)

theorem signedNumber {kind : NodeKind} (hkind : kind.isFree = true) {accepted : List TokenKind}
    (haccepted : ∀ kind ∈ accepted, Lookahead.isPlainKind kind = true) :
    Twin grammar grammar' depth mode known true pending pending
      (Production.signedNumber kind accepted) (Production.signedNumber kind accepted) := by
  have hsign : ∀ {known : List Lexeme → Prop}, Passes (fun input => known input ∧
      Lookahead.isAny input ["+", "-"] = true) 1 :=
    Passes.zero.succ (fun _ h => .of_isAny h.2 (by decide)) (by decide : Role.plain ≠ _ ∧ _)
  have hsigned : ∀ input, known input ∧ (Lookahead.isAny input ["+", "-"] &&
      Lookahead.adjacent input 0) = true →
      Lookahead.isAny input ["+", "-"] = true ∧ Lookahead.adjacent input 0 = true := by
    intro input h
    simpa using h.2
  refine ifAhead ((Steady.isAny _).and (Steady.adjacent hsign))
    (guarded ((Steady.kind? ?_).comp fun kind => kind.any accepted.contains) (take (.free hkind) ?_))
    (guarded ((Steady.kind? Passes.zero).comp fun kind => kind.any accepted.contains)
      (take (.free hkind) (.one (fun _ h => hasRole_of_accepted haccepted h.2) .plain)))
  · exact fun _ h => hsign _ (And.intro h.1 (hsigned _ h).1)
  · exact .two (fun _ h => .of_isAny (hsigned _ h.1).1 (by decide))
      (fun _ h => hasRole_of_accepted haccepted h.2) (by decide)
      (fun _ h => Lookahead.leading_of_adjacent (hsigned _ h.1).2) .plain .plain

theorem samplerValue (field : String) : Twin grammar grammar' depth mode known true pending pending
    (Production.samplerValue field) (Production.samplerValue field) := by
  unfold Production.samplerValue
  split_ifs
  · exact signedNumber rfl (by decide)
  · exact enumValue rfl (by decide)
  · exact enumValue rfl (by decide)
  · exact enumValue rfl (by decide)
  · exact enumValue rfl (by decide)
  · exact signedNumber rfl (by decide)
  · exact enumValue rfl (by decide)
  · exact fail

/-- Every field of a sampler is spelled like a keyword. -/
theorem samplerField_of_not_isKeyword {field : String} (h : ¬ Lookahead.IsKeyword field) :
    Production.samplerField field = Production.fail := by
  have hvalue : Production.samplerValue field = Production.fail := by
    unfold Production.samplerValue
    split_ifs with _ hfilter _ _ haddress hlod
    · subst_vars
      exact absurd (by decide) h
    · simp only [List.contains_eq_mem, List.mem_cons, List.not_mem_nil, or_false,
        decide_eq_true_eq] at hfilter
      rcases hfilter with rfl | rfl | rfl <;> exact absurd (by decide) h
    · subst_vars
      exact absurd (by decide) h
    · subst_vars
      exact absurd (by decide) h
    · simp only [List.contains_eq_mem, List.mem_cons, List.not_mem_nil, or_false,
        decide_eq_true_eq] at haddress
      rcases haddress with rfl | rfl | rfl <;> exact absurd (by decide) h
    · simp only [List.contains_eq_mem, List.mem_cons, List.not_mem_nil, or_false,
        decide_eq_true_eq] at hlod
      rcases hlod with rfl | rfl | rfl <;> exact absurd (by decide) h
    · subst_vars
      exact absurd (by decide) h
    · rfl
  funext state
  show (Production.expect "=" >=> Production.samplerValue field >=> Production.expect ";")
    state.bump = Production.fail state
  rw [hvalue, Production.seq_apply, Production.expect]
  split <;> rfl

theorem samplerMember : Twin grammar grammar' depth mode known true (.brace :: pending)
    (.brace :: pending) Production.samplerMember Production.samplerMember := by
  refine node rfl (chooseBy (Steady.text Passes.zero) fun field => ?_)
  by_cases hkeyword : Lookahead.IsKeyword field
  · have hplain : ∀ input, known input ∧ Lookahead.text input 0 = field →
        HasRole input 0 .plain := fun _ h => .of_text (h.2 ▸ hkeyword)
    exact (bumpPlain hplain).followed <| (word "=" rfl).followed <|
      (samplerValue field).followed <| expect ";" (.ends_inside (by decide))
  · rw [samplerField_of_not_isKeyword hkeyword]
    exact fail

theorem samplerBody : Twin grammar grammar' depth mode known true pending pending
    Production.samplerBody Production.samplerBody :=
  node rfl <| openBrace.followed <|
    (repeated (Steady.isAt Passes.zero _).not samplerMember).before closeBrace

/-! ## Variables -/

theorem initializer : Twin grammar grammar' (depth + 1) .inner known true [] []
    (Production.initializer grammar depth) (Production.initializer grammar' depth) := by
  have hcomma : Steady Unknown fun rest =>
      Lookahead.isAt rest 0 "," && !Lookahead.isAt rest 1 "\x7d" :=
    (Steady.isAt Passes.zero _).and
      (Steady.isAt (Steady.passes_isAt _ (by decide) fun _ => And.right) _).not
  unfold Production.initializer Grammar.nested
  split
  · exact fail
  · refine node rfl <| ifAt ?_ (rule (.expression 0) rfl)
    refine (bumpAt (.opens .brace)).followed <|
      (node rfl <| (rule .initializer rfl).followed <|
        (repeated hcomma ((bumpPlain fun _ h => ?_).followed (rule .initializer rfl))).beside
          (optional rfl)).followed closeBrace
    exact .of_isAt (Bool.and_eq_true_iff.mp h).1

/-- A colon, and a look at the word behind it. -/
theorem steady_colon {p : List Lexeme → Bool}
    (hp : Steady (fun input => known input ∧ Lookahead.isAt input 0 ":" = true) p) :
    Steady known fun rest => Lookahead.isAt rest 0 ":" && p rest :=
  (Steady.isAt Passes.zero _).and hp

theorem passes_colon :
    Passes (fun input => known input ∧ Lookahead.isAt input 0 ":" = true) 1 :=
  Steady.passes_isAt _ (by decide) fun _ => And.right

theorem declaratorSuffix : Twin grammar grammar' depth .inner known false [] []
    (Production.declaratorSuffix grammar depth) (Production.declaratorSuffix grammar' depth) := by
  refine (whileAt arrayRank).beside <| (whenAhead ?_ semantic).beside <|
    (whenAhead (steady_colon (Steady.isAt passes_colon _)) packOffset).beside <|
    (whenAhead (steady_colon (Steady.isAt passes_colon _)) registerAllocation).beside <|
    whenAhead (Steady.isAny _) <| node rfl <|
      ifAt ((bumpAt .plain).followed (rule .initializer rfl)) samplerBody
  refine (steady_colon (Steady.isAt passes_colon _).not).and (Steady.isAt ?_ _).not
  exact Steady.passes_isAt ":" (by decide) fun _ h => (Bool.and_eq_true_iff.mp h.2).1

theorem declarator : Twin grammar grammar' depth .inner known true [] []
    (Production.declarator grammar depth) (Production.declarator grammar' depth) :=
  node rfl (identifier.followed declaratorSuffix)

theorem variableDeclaration : Twin grammar grammar' depth .inner known true [] []
    (Production.variableDeclaration grammar depth)
    (Production.variableDeclaration grammar' depth) :=
  node rfl <| storageFlags.before <| (rule .type rfl).followed <|
    node rfl (commaSeparated declarator)

/-! ## Signatures -/

theorem genericConstraint : Twin grammar grammar' depth mode known true pending pending
    (Production.genericConstraint grammar depth) (Production.genericConstraint grammar' depth) :=
  node rfl ((word ":" rfl).followed userDefinedType)

theorem genericParameter : Twin grammar grammar' depth mode known true pending pending
    (Production.genericParameter grammar depth) (Production.genericParameter grammar' depth) :=
  node rfl (identifier.followed (whenAt genericConstraint))

theorem genericParameters : Twin grammar grammar' depth mode known true pending pending
    (Production.genericParameters grammar depth) (Production.genericParameters grammar' depth) :=
  node rfl <| (word "<" rfl).followed <|
    (commaSeparated genericParameter).followed (word ">" rfl)

theorem functionParameter : Twin grammar grammar' depth .inner known true [] []
    (Production.functionParameter grammar depth) (Production.functionParameter grammar' depth) :=
  node rfl <| attributes.before <| storageFlags.before <| (rule .type rfl).followed <|
    (whenAhead Steady.isName identifier).beside declaratorSuffix

theorem ownerPath : Twin grammar grammar' depth mode known false pending pending
    Production.ownerPath Production.ownerPath := by
  refine chooseBy Steady.qualifiedLength fun count => ?_
  unfold Production.ownersOf
  split
  · exact ((node rfl (qualifiedName _)).followed (word "::" rfl)).maybe
  · exact skip

theorem signature : Twin grammar grammar' depth mode known true pending pending
    (Production.signature grammar depth) (Production.signature grammar' depth) :=
  node rfl <| storageFlags.before <| (ruleDirect .type rfl).followed <| ownerPath.before <|
    identifier.followed <| (whenAt genericParameters).before <| openParen.followed <|
    (unlessAt (node rfl (commaSeparated (functionParameter.lift rfl)))).before <|
    closeParen.followed <| (optional rfl).beside (whenAt semantic)

end Twin

/-! ## Functions -/

namespace Production

/-- A function with its attributes, declared. -/
def declaredFunction (grammar : Grammar) (depth : Nat) : Production :=
  inScope <|
    attributes >=>
    enclose .attributedFunctionDeclaration
      (node .functionDeclaration (signature grammar depth >=> expect ";"))

/-- A function with its attributes, defined. -/
def definedFunction (grammar : Grammar) (depth : Nat) : Production :=
  inScope <|
    attributes >=>
    enclose .attributedFunctionDefinition
      (node .functionDefinition
        (signature grammar depth >=> guard (Lookahead.isAt · 0 "\x7b") >=> grammar .block depth))

/-- What follows the signature decides between a declaration and a definition. Trying one after
the other comes to the same. -/
theorem attributedFunction_eq (grammar : Grammar) (depth : Nat) :
    attributedFunction grammar depth
      = orElse (declaredFunction grammar depth) (definedFunction grammar depth) := by
  funext state
  simp only [attributedFunction, orElse, declaredFunction, definedFunction, inScope_apply,
    seq_apply]
  cases attributes state.flush.opened with
  | error stop => cases stop <;> rfl
  | ok between =>
    simp only [Except.bind, nodeThen, enclose_apply, node_apply, seq_apply]
    cases signature grammar depth between.flush.opened with
    | error stop => cases stop <;> rfl
    | ok inner =>
      simp only
      by_cases hsemicolon : Lookahead.isAt inner.rest 0 ";" = true
      · simp [hsemicolon, expect, ParseState.sees, Production.bump, Except.map]
      · simp only [hsemicolon, expect, ParseState.sees, Bool.false_eq_true, if_false, Except.map,
          seq_apply]
        cases guard (Lookahead.isAt · 0 "\x7b") inner with
        | error stop => rfl
        | ok guarded =>
          simp only [Except.bind]
          cases grammar .block depth guarded <;> rfl

end Production

namespace Ended

variable {grammar grammar' : Grammar} {depth : Nat} {known : List Lexeme → Prop}

theorem variableStatement : Ended grammar grammar' depth .inner [.semicolon] known
    (Production.variableStatement grammar depth) (Production.variableStatement grammar' depth) :=
  node rfl (seq .variableDeclaration semicolon)

theorem declaredFunction : Ended grammar grammar' depth .inner [.semicolon] known
    (Production.declaredFunction grammar depth) (Production.declaredFunction grammar' depth) :=
  inScope <| seq .attributes <| enclose rfl <| node rfl <| seq .signature semicolon

theorem definedFunction : Ended grammar grammar' depth .direct [] known
    (Production.definedFunction grammar depth) (Production.definedFunction grammar' depth) :=
  inScope <| seq .attributes <| enclose rfl <| node rfl <| seq .signature <|
    seq (.guard (Steady.isAt Passes.zero _)) block

theorem functionDeclaration : Ended grammar grammar' depth .inner [.semicolon] known
    (Production.functionDeclaration grammar depth)
    (Production.functionDeclaration grammar' depth) :=
  node rfl <| seq .attributes <| node rfl <| seq .signature semicolon

/-! ## Type aliases and compiler extensions -/

theorem typeAlias : Ended grammar grammar' depth .inner [.semicolon] known
    (Production.typeAlias grammar depth) (Production.typeAlias grammar' depth) :=
  node rfl <| ifAhead (Steady.isAt Passes.zero _)
    (node rfl <| seq (.bumpAt .plain) <| seq .identifier <| seq (.word "=" rfl) <|
      seq (.rule .type rfl) semicolon)
    (node rfl <| seq (.word "typedef" rfl) <| seq (.rule .type rfl) <| seq .identifier semicolon)

theorem compilerExtension : Ended grammar grammar' depth .inner [.semicolon] known
    (Production.compilerExtension grammar depth) (Production.compilerExtension grammar' depth) := by
  unfold Production.compilerExtension
  rw [← Production.seq_assoc _ (Production.expect ")"),
    ← Production.seq_assoc _ (Production.expect ")")]
  refine node rfl (seq (.followed (.ifAt ?_ ?_) .closeParen) semicolon)
  · exact (Twin.bumpAt .plain).followed (Twin.openParen.followed .string)
  · exact (Twin.word "__azslc_print_symbol" rfl).followed <| Twin.openParen.followed <|
      (Twin.ifAt .typeofExpression .idExpression).followed <| (Twin.word "," rfl).followed <|
      .guarded (Steady.isAny _) (.bumpPlain fun _ h => .of_isAny h.2 (by decide))

theorem structuredStatement : Ended grammar grammar' depth .inner [.semicolon] known
    (Production.structuredStatement grammar depth)
    (Production.structuredStatement grammar' depth) :=
  node rfl <| seq .attributes <| seq (.rule .structured rfl) semicolon

end Ended

namespace Twin

variable {grammar grammar' : Grammar} {depth : Nat} {mode : Mode} {known : List Lexeme → Prop}
  {pending : List Closer}

/-! ## Structured types -/

theorem attributedFunction : Twin grammar grammar' depth .statement known true [] []
    (Production.attributedFunction grammar depth)
    (Production.attributedFunction grammar' depth) := by
  rw [Production.attributedFunction_eq, Production.attributedFunction_eq]
  exact orElse (by decide) Ended.declaredFunction.twin Ended.definedFunction.twin

theorem steady_structured :
    Steady known fun rest => Keyword.structuredKeywords.contains (Lookahead.keyword rest) :=
  Steady.keyword.comp Keyword.structuredKeywords.contains

theorem plainMember : Twin grammar grammar' depth .statement known true [] []
    (Production.aggregateMember.plainMember grammar depth)
    (Production.aggregateMember.plainMember grammar' depth) :=
  orElse (by decide) attributedFunction (ifAt anyAttribute Ended.variableStatement.twin)

theorem aggregateMember : Twin grammar grammar' depth .statement known true [] []
    (Production.aggregateMember grammar depth) (Production.aggregateMember grammar' depth) :=
  ifAhead (Steady.isAny _) Ended.typeAlias.twin <|
    ifAhead steady_structured (orElse (by decide) Ended.structuredStatement.twin plainMember)
      plainMember

/-- Members between braces; what is none is passed over. -/
theorem members {item item' : Production}
    (h : Twin grammar grammar' depth .statement Unknown true [] [] item item') :
    Twin grammar grammar' depth mode known true pending pending
      (Production.braced (Production.orRecover item))
      (Production.braced (Production.orRecover item')) :=
  braced (orRecover (fun _ => id) h.always)

theorem classDefinition : Twin grammar grammar' depth mode known true pending pending
    (Production.classDefinition grammar depth) (Production.classDefinition grammar' depth) :=
  node rfl <| (word "class" rfl).followed <| identifier.followed <|
    (whenAt (node rfl ((bumpAt .plain).followed (commaSeparated idExpression)))).before <|
    members (node rfl aggregateMember)

theorem structDefinition : Twin grammar grammar' depth mode known true pending pending
    (Production.structDefinition grammar depth) (Production.structDefinition grammar' depth) :=
  node rfl <| (word "struct" rfl).followed <| identifier.followed <|
    members (node rfl aggregateMember)

theorem associatedType : Twin grammar grammar' depth .statement known true [] []
    (Production.associatedType grammar depth) (Production.associatedType grammar' depth) :=
  node rfl <| (word "associatedtype" rfl).followed <| identifier.followed <|
    (whenAt genericConstraint).before (expect ";" .ends_statement)

theorem interfaceDefinition : Twin grammar grammar' depth mode known true pending pending
    (Production.interfaceDefinition grammar depth)
    (Production.interfaceDefinition grammar' depth) :=
  node rfl <| (word "interface" rfl).followed <| identifier.followed <| members <| node rfl <|
    ifAt associatedType <|
    ifAhead steady_structured Ended.structuredStatement.twin Ended.functionDeclaration.twin

theorem enumerator : Twin grammar grammar' depth .statement known true [] []
    (Production.enumerator grammar depth) (Production.enumerator grammar' depth) :=
  node rfl <| identifier.followed <|
    whenAt ((bumpAt .plain).followed (rule (.expression 0) rfl))

theorem enumDefinition : Twin grammar grammar' depth mode known true pending pending
    (Production.enumDefinition grammar depth) (Production.enumDefinition grammar' depth) := by
  have hcomma : Steady Unknown fun rest =>
      Lookahead.isAt rest 0 "," && !Lookahead.isAt rest 1 "\x7d" :=
    (Steady.isAt Passes.zero _).and
      (Steady.isAt (Steady.passes_isAt _ (by decide) fun _ => And.right) _).not
  refine node rfl <| (node rfl <| (word "enum" rfl).followed <|
      whenAhead (Steady.isAny _) (bumpPlain fun _ h => .of_isAny h.2 (by decide))).followed <|
    identifier.followed <| members <| node rfl <| enumerator.followed <|
    (repeated hcomma ((bumpPlain fun _ h => ?_).followed enumerator)).beside (optional rfl)
  exact .of_isAt (Bool.and_eq_true_iff.mp h).1

theorem structured : Twin grammar grammar' (depth + 1) mode known true pending pending
    (Production.structured grammar depth) (Production.structured grammar' depth) := by
  unfold Production.structured Grammar.nested
  split
  · exact fail
  · refine node rfl (chooseBy (Steady.text Passes.zero) fun word => ?_)
    unfold Production.structuredOf
    split_ifs
    · exact classDefinition
    · exact interfaceDefinition
    · exact structDefinition
    · exact enumDefinition
    · exact fail

end Twin

end Azsl
