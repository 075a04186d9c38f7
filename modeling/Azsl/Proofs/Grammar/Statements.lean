/-
Azsl.Proofs.Grammar.Statements — statements, the declarations of a file and the nonterminals.

One lemma for each production. The last ones say that one unfolding of a nonterminal is a
combination over the grammar it is unfolded to, which is what an induction over the calls
inside one another needs.
-/
import Azsl.Grammar.TopLevel
import Azsl.Proofs.Grammar.Declarations

namespace Azsl

theorem Steady.isEmpty {known : List Lexeme → Prop} : Steady known List.isEmpty where
  bare input := by cases input <;> rfl
  stays := by
    intro d e pending left right after after' halike _ hne _ _
    have hright : right ≠ [] := by
      rintro rfl
      exact hne (List.length_eq_zero_iff.mp halike.length_eq)
    rw [List.isEmpty_eq_false_iff.mpr (by simp [hne]),
      List.isEmpty_eq_false_iff.mpr (by simp [hright])]

namespace Twin

variable {grammar grammar' : Grammar} {depth : Nat} {mode : Mode} {known : List Lexeme → Prop}
  {pending : List Closer}

/-! ## Statements -/

theorem declarationOrOther : Twin grammar grammar' depth .statement known true [] []
    (Production.statement.declarationOrOther grammar depth)
    (Production.statement.declarationOrOther grammar' depth) :=
  ifAhead (Steady.isCompilerExtension.not.and Steady.startsType)
    (orElse (by decide) Ended.variableStatement.twin (rule .embedded rfl)) (rule .embedded rfl)

theorem statement : Twin grammar grammar' depth .statement known true [] []
    (Production.statement grammar depth) (Production.statement grammar' depth) :=
  node rfl <| ifAhead steady_structured
    (orElse (by decide) Ended.structuredStatement.twin declarationOrOther) declarationOrOther

theorem block : Twin grammar grammar' (depth + 1) mode known true pending pending
    (Production.block grammar depth) (Production.block grammar' depth) := by
  unfold Production.block Grammar.nested
  split
  · exact fail
  · exact node rfl (members statement)

theorem condition : Twin grammar grammar' depth mode known true pending pending
    (Production.condition grammar depth) (Production.condition grammar' depth) :=
  openParen.followed ((expressionExt.lift rfl).followed closeParen)

theorem ifStatement : Twin grammar grammar' depth .statement known true [] []
    (Production.ifStatement grammar depth) (Production.ifStatement grammar' depth) :=
  (word "if" rfl).followed <| condition.followed <| (rule .embedded rfl).followed <|
    whenAt (node rfl ((bumpAt .plain).followed (rule .embedded rfl)))

theorem switchSection : Twin grammar grammar' depth .statement
    (fun input => known input ∧ Lookahead.isSwitchLabel input = true) true [] []
    (Production.switchSection grammar depth) (Production.switchSection grammar' depth) := by
  have hlabel : Twin grammar grammar' depth .statement (Lookahead.isSwitchLabel · = true) true
      [] [] (Production.node .switchLabel (Production.ifAt "case"
        (Production.bump >=> grammar (.expression 0) depth) Production.bump >=>
          Production.expect ":"))
      (Production.node .switchLabel (Production.ifAt "case"
        (Production.bump >=> grammar' (.expression 0) depth) Production.bump >=>
          Production.expect ":")) :=
    node rfl <| (ifAt ((bumpAt .plain).followed (rule (.expression 0) rfl))
      (bumpPlain fun _ h => .of_isAny h.1 (by decide))).followed (word ":" rfl)
  have hmore : Steady Unknown fun rest =>
      !rest.isEmpty && !Lookahead.isAt rest 0 "\x7d" && !Lookahead.isSwitchLabel rest :=
    (Steady.isEmpty.not.and (Steady.isAt Passes.zero _).not).and Steady.isSwitchLabel.not
  -- the first loop turns at least once
  refine node rfl <| (whileAhead Steady.isSwitchLabel hlabel fun _ _ h => h.2).followed <|
    repeated hmore (orRecover (fun input h => ?_) statement)
  have hparts : (¬ input = [] ∧ Lookahead.isAt input 0 "\x7d" = false) ∧
      Lookahead.isSwitchLabel input = false := by
    simpa using h
  exact hparts.1

theorem switchStatement : Twin grammar grammar' depth .statement known true [] []
    (Production.switchStatement grammar depth) (Production.switchStatement grammar' depth) :=
  (word "switch" rfl).followed <| condition.followed <| node rfl <| braced <|
    ifAhead Steady.isSwitchLabel switchSection (recover fun _ h => h.1)

theorem whileStatement : Twin grammar grammar' depth .statement known true [] []
    (Production.whileStatement grammar depth) (Production.whileStatement grammar' depth) :=
  (word "while" rfl).followed <| condition.followed (rule .embedded rfl)

theorem doStatement : Twin grammar grammar' depth .statement known true [] []
    (Production.doStatement grammar depth) (Production.doStatement grammar' depth) :=
  (word "do" rfl).followed <| (rule .embedded rfl).followed <| (word "while" rfl).followed <|
    condition.followed (expect ";" .ends_statement)

theorem forStatement : Twin grammar grammar' depth .statement known true [] []
    (Production.forStatement grammar depth) (Production.forStatement grammar' depth) := by
  have hinitializer : ∀ {known}, Twin grammar grammar' depth .inner known true [] []
      (Production.node .forInitializer (Production.orElse
        (Production.variableDeclaration grammar depth >=>
          Production.guard (Lookahead.isAt · 0 ";"))
        (Production.expressionExt grammar depth)))
      (Production.node .forInitializer (Production.orElse
        (Production.variableDeclaration grammar' depth >=>
          Production.guard (Lookahead.isAt · 0 ";"))
        (Production.expressionExt grammar' depth))) :=
    node rfl <| orElse (by decide)
      (variableDeclaration.followed (guard (Steady.isAt Passes.zero _))) expressionExt
  exact (word "for" rfl).followed <| openParen.followed <|
    (unlessAt (hinitializer.lift rfl)).before <|
    (expect ";" (.ends_inside (by decide))).followed <|
    (unlessAt (expressionExt.lift rfl)).before <|
    (expect ";" (.ends_inside (by decide))).followed <|
    (unlessAt (expressionExt.lift rfl)).before <| closeParen.followed (rule .embedded rfl)

theorem plainStatement {word : String}
    (hword : ∀ input, known input → Lookahead.text input 0 = word) :
    Twin grammar grammar' depth .statement known true [] []
      (Production.plainStatement grammar depth word)
      (Production.plainStatement grammar' depth word) := by
  have hplain : Lookahead.IsKeyword word →
      ∀ input, known input → Lookahead.HasRole input 0 .plain :=
    fun h _ hknown => .of_text (hword _ hknown ▸ h)
  unfold Production.plainStatement
  split_ifs with hjump hreturn
  · have hmem : word ∈ ["break", "continue", "discard"] := by simpa using hjump
    have hkeyword : ∀ jump ∈ ["break", "continue", "discard"], Lookahead.IsKeyword jump := by
      decide
    exact (bumpPlain (hplain (hkeyword word hmem))).followed (expect ";" .ends_statement)
  · subst hreturn
    exact (bumpPlain (hplain (by decide))).followed <|
      (unlessAt (expressionExt.lift rfl)).before (expect ";" .ends_statement)
  · exact Ended.typeAlias.twin
  · exact ifAhead Steady.isCompilerExtension Ended.compilerExtension.twin <|
      (expressionExt.lift rfl).followed (expect ";" .ends_statement)

theorem statementOf {attributed : Bool} {word : String}
    (hword : ∀ input, known input → Lookahead.text input 0 = word) :
    Twin grammar grammar' depth .statement known true [] []
      (Production.statementOf grammar depth attributed word)
      (Production.statementOf grammar' depth attributed word) := by
  unfold Production.statementOf Production.attributableStatement?
  by_cases hif : word = "if"
  · subst hif
    exact ifStatement
  by_cases hswitch : word = "switch"
  · subst hswitch
    exact switchStatement
  by_cases hwhile : word = "while"
  · subst hwhile
    exact whileStatement
  by_cases hdo : word = "do"
  · subst hdo
    exact doStatement
  by_cases hfor : word = "for"
  · subst hfor
    exact forStatement
  simp only [hfor, hdo, hwhile, hswitch, hif, if_false]
  split
  · exact fail
  · exact plainStatement hword

theorem attributedStatement (attributed : Bool) :
    Twin grammar grammar' depth .statement known true [] []
      (Production.attributedStatement grammar depth attributed)
      (Production.attributedStatement grammar' depth attributed) :=
  (whileAt attributeSpecifier).before <|
    chooseBy (Steady.text Passes.zero) fun _ => statementOf fun _ h => h.2

theorem embedded : Twin grammar grammar' (depth + 1) .statement known true [] []
    (Production.embedded grammar depth) (Production.embedded grammar' depth) := by
  unfold Production.embedded Grammar.nested
  split
  · exact fail
  · exact node rfl <| ifAt (bumpAt .ends_statement) <| ifAt (rule .block rfl) <|
      chooseBy (Steady.isAt Passes.zero _) fun attributed => attributedStatement attributed

/-! ## Shader resource groups -/

theorem resourceMember : Twin grammar grammar' depth .statement known true [] []
    (Production.resourceMember grammar depth) (Production.resourceMember grammar' depth) := by
  refine ifAhead (Steady.isAny _) Ended.typeAlias.twin <|
    chooseBy (Steady.text Passes.zero) fun word => ?_
  unfold Production.resourceMemberOf
  split_ifs
  · exact node rfl (structDefinition.followed (expect ";" .ends_statement))
  · exact node rfl (enumDefinition.followed (expect ";" .ends_statement))
  · exact orElse (by decide) attributedFunction
      (ifAt anyAttribute Ended.variableStatement.twin)

theorem resourceSemanticMember : Twin grammar grammar' depth .statement known true [] []
    (Production.node .srgSemanticMemberDeclaration
      (Production.guard (Lookahead.isAny · Keyword.srgSemanticFields) >=> Production.bump >=>
        Production.expect "=" >=> Production.literal >=> Production.expect ";"))
    (Production.node .srgSemanticMemberDeclaration
      (Production.guard (Lookahead.isAny · Keyword.srgSemanticFields) >=> Production.bump >=>
        Production.expect "=" >=> Production.literal >=> Production.expect ";")) :=
  node rfl <| guarded (Steady.isAny _) <|
    (bumpPlain fun _ h => .of_isAny h.2 (by decide)).followed <| (word "=" rfl).followed <|
    literal.followed (expect ";" .ends_statement)

end Twin

namespace Ended

variable {grammar grammar' : Grammar} {depth : Nat} {known : List Lexeme → Prop}

theorem resourceGroup : Ended grammar grammar' depth .direct [] known
    (Production.resourceGroup grammar depth) (Production.resourceGroup grammar' depth) :=
  node rfl <| seq .attributes <| node rfl <| seq (.optional rfl) <|
    seq (.word "ShaderResourceGroup" rfl) <| seq .identifier <|
    seq (.whenAt (.followed (.bumpAt .plain) .identifier)) <|
    braced (.orRecover (fun _ => id) (.node rfl .resourceMember))

theorem resourceGroupSemantic : Ended grammar grammar' depth .direct [] known
    Production.resourceGroupSemantic Production.resourceGroupSemantic :=
  node rfl <| seq .attributes <| node rfl <| seq (.word "ShaderResourceGroupSemantic" rfl) <|
    seq .identifier <| node rfl <| braced (.orRecover (fun _ => id) .resourceSemanticMember)

end Ended

namespace Twin

variable {grammar grammar' : Grammar} {depth : Nat} {known : List Lexeme → Prop}

/-! ## Declarations of a file -/

theorem includePath (closing : String) :
    Twin grammar grammar' depth .loose
      (fun input => known input ∧ Lookahead.text input 0 ≠ "") true [] []
      (Production.includePath closing) (Production.includePath closing) := by
  have hopening : ∀ input, known input ∧ Lookahead.text input 0 ≠ "" → input ≠ [] := by
    rintro input h rfl
    exact h.2 rfl
  have hpath : ∀ input, Unknown input ∧
      (Lookahead.kind? input 0 == some .includePath) = true → input ≠ [] := by
    rintro input h rfl
    simp [Lookahead.kind?, Lookahead.token?] at h
  exact (take (.ofText fun _ => And.right) (.loose hopening)).followed <|
    guarded ((Steady.kind? Passes.zero).comp (· == some .includePath)) <|
    (take (.free rfl) (.loose hpath)).followed <| expect closing .loose

theorem includePathOf (opening : String) :
    Twin grammar grammar' depth .loose
      (fun input => known input ∧ Lookahead.text input 0 = opening) true [] []
      (Production.includePathOf opening) (Production.includePathOf opening) := by
  have hopening : opening ≠ "" → ∀ input, known input ∧ Lookahead.text input 0 = opening →
      known input ∧ Lookahead.text input 0 ≠ "" := fun hne _ h => ⟨h.1, h.2 ▸ hne⟩
  unfold Production.includePathOf
  split_ifs with hquote hangle
  · exact (includePath _).ofKnown (hopening (by rw [hquote]; decide))
  · exact (includePath _).ofKnown (hopening (by rw [hangle]; decide))
  · exact fail

theorem includeStatement : Twin grammar grammar' depth .loose
    (fun input => known input ∧ (Lookahead.kind? input 0 == some .includeDirective) = true)
    true [] [] Production.includeStatement Production.includeStatement := by
  have hdirective : ∀ input, known input ∧
      (Lookahead.kind? input 0 == some .includeDirective) = true →
      Lookahead.kind? input 0 = some .includeDirective := fun _ h => by simpa using h.2
  have hne : ∀ input, known input ∧
      (Lookahead.kind? input 0 == some .includeDirective) = true → input ≠ [] := by
    rintro input h rfl
    cases hdirective [] h
  exact node rfl <| (take (.ofKind (by decide) hdirective) (.loose hne)).followed <|
    chooseBy (Steady.text Passes.zero) fun opening => includePathOf opening

theorem functionOrVariables : Twin grammar grammar' depth .statement known true [] []
    (Production.functionOrVariables grammar depth)
    (Production.functionOrVariables grammar' depth) :=
  orElse (by decide) attributedFunction <|
    ifAhead isAttributeSequence attributeSequence Ended.variableStatement.twin

theorem declarationOf (word : String) : Twin grammar grammar' depth .statement known true [] []
    (Production.declarationOf grammar depth word)
    (Production.declarationOf grammar' depth word) := by
  unfold Production.declarationOf
  split_ifs
  · exact Ended.resourceGroup.twin
  · exact Ended.resourceGroupSemantic.twin
  · exact orElse (by decide) Ended.structuredStatement.twin Ended.variableStatement.twin
  · exact functionOrVariables

theorem topLevelDeclaration : Twin grammar grammar' depth .loose known true [] []
    (Production.topLevelDeclaration grammar depth)
    (Production.topLevelDeclaration grammar' depth) :=
  ifAhead ((Steady.kind? Passes.zero).comp (· == some .includeDirective)) includeStatement <|
  ifAt (bumpAt .loose) <|
  ifAhead Steady.isCompilerExtension (Ended.compilerExtension.twin.lift rfl) <|
  ifAhead (Steady.isAny _) (Ended.typeAlias.twin.lift rfl) <|
  chooseBy Steady.keyword fun word => (declarationOf word).lift rfl

end Twin

/-! ## Nonterminals -/

/-- The depth at which the nonterminals inside of one are parsed. -/
def Rule.innerDepth : Rule → Nat → Nat
  | .expression _, depth => depth
  | _, depth => depth + 1

/-- One unfolding of a nonterminal is a combination. -/
theorem Twin.step {grammar grammar' : Grammar} {known : List Lexeme → Prop} (rule : Rule)
    (depth : Nat) :
    Twin grammar grammar' (rule.innerDepth depth) rule.mode known true [] []
      (grammar.step rule depth) (grammar'.step rule depth) := by
  cases rule with
  | type => exact .type
  | expression minPower => exact .expression minPower
  | unary => exact .unary
  | initializer => exact .initializer
  | structured => exact .structured
  | block => exact .block
  | embedded => exact .embedded

end Azsl
