/-
Azsl.Proofs.Grammar.Operands — names, literals, attributes, expressions and types.

One lemma for each production. Those that hold in every mode and behind any open brackets say
so; those that contain an expression of their own rely on `inner`.
-/
import Azsl.Grammar.Type
import Azsl.Proofs.Grammar.Combination

namespace Azsl

/-- Names are words. -/
theorem Lookahead.kind?_of_isName {input : List Lexeme} {n : Nat} (h : isName input n = true) :
    kind? input n = some .word := by
  simp only [isName, Bool.and_eq_true, beq_iff_eq] at h
  exact h.1

namespace Lookahead.HasRole

variable {input : List Lexeme}

theorem of_isName {n : Nat} (h : isName input n = true) : HasRole input n .plain :=
  .of_kind (kind?_of_isName h) (by decide)

end Lookahead.HasRole

namespace Twin

open Lookahead (HasRole)

variable {grammar grammar' : Grammar} {depth : Nat} {mode : Mode} {known : List Lexeme → Prop}
  {pending : List Closer}

/-! ## Names -/

theorem identifier : Twin grammar grammar' depth mode known true pending pending
    Production.identifier Production.identifier :=
  guarded Steady.isName <|
    bumpAs (.ofWord rfl fun _ h => Lookahead.kind?_of_isName h.2) (fun _ h => .of_isName h.2) .plain

theorem furtherNames (count : Nat) : Twin grammar grammar' depth mode known false pending pending
    (Production.furtherNames count) (Production.furtherNames count) := by
  induction count generalizing known with
  | zero => exact skip
  | succ count ih => exact ((word "::" rfl).followed (identifier.followed ih)).maybe

theorem qualifiedName (count : Nat) : Twin grammar grammar' depth mode known true pending pending
    (Production.qualifiedName count) (Production.qualifiedName count) := by
  cases count with
  | zero => exact fail
  | succ count =>
    exact node rfl ((optional rfl).before (identifier.followed (furtherNames count)))

theorem idExpression : Twin grammar grammar' depth mode known true pending pending
    Production.idExpression Production.idExpression :=
  chooseBy Steady.qualifiedLength fun count => qualifiedName count

/-! ## Literals -/

theorem integerLiteral : Twin grammar grammar' depth mode known true pending pending
    Production.integerLiteral Production.integerLiteral :=
  guarded ((Steady.kind? Passes.zero).comp (· == some .integerLiteral)) <|
    bumpAs (.free rfl) (fun _ h => .of_kind (by simpa using h.2) (by decide)) .plain

theorem literal : Twin grammar grammar' depth mode known true pending pending
    Production.literal Production.literal := by
  refine node rfl (chooseBy (Steady.kind? Passes.zero) fun kind => ?_)
  unfold Production.literalOf
  split
  · exact bumpAs (.free rfl) (fun _ h => .of_kind h.2 (by decide)) .plain
  · exact bumpAs (.free rfl) (fun _ h => .of_kind h.2 (by decide)) .plain
  · exact string
  · exact guarded (Steady.isAny _) (bumpPlain fun _ h => .of_isAny h.2 (by decide))

/-! ## Attributes -/

theorem attributeArgument : Twin grammar grammar' depth mode known true pending pending
    Production.attributeArgument Production.attributeArgument :=
  node rfl (ifAhead Steady.isLiteral literal idExpression)

theorem attributeArgumentList : Twin grammar grammar' depth mode known true pending pending
    Production.attributeArgumentList Production.attributeArgumentList :=
  node rfl <| openParen.followed <| attributeArgument.followed <|
    (repeated (Steady.isAt Passes.zero _).not ((optional rfl).before attributeArgument)).before
      closeParen

theorem attributeItem : Twin grammar grammar' depth mode known true pending pending
    Production.attributeItem Production.attributeItem :=
  have hglobal : Steady known fun rest =>
      Lookahead.isAt rest 0 "global" && Lookahead.isAt rest 1 "::" :=
    (Steady.isAt Passes.zero _).and
      (Steady.isAt (Steady.passes_isAt _ (by decide) fun _ => And.right) _)
  have htaken : Twin grammar grammar' depth mode (fun input => known input ∧
      (Lookahead.isAt input 0 "global" && Lookahead.isAt input 1 "::") = true) true pending pending
      (Production.bump >=> Production.expect "::") (Production.bump >=> Production.expect "::") :=
    (bumpPlain fun _ h => .of_isAt (Bool.and_eq_true_iff.mp h.2).1).followed (word "::" rfl)
  node rfl <| (whenAhead hglobal htaken).before <| identifier.followed <|
    (whenAt ((bumpAt .plain).followed identifier)).beside (whenAt attributeArgumentList)

theorem attributeSpecifier : Twin grammar grammar' depth mode known true pending pending
    Production.attributeSpecifier Production.attributeSpecifier :=
  node rfl (openBracket.followed (attributeItem.followed closeBracket))

/-- Two brackets that touch, taken as one leaf. -/
theorem takes_brackets {text : String} {role : Role} {pending between next : List Closer}
    (hrole : Role.ofText text = role) (hfinal : role ≠ .ends ∧ role ≠ .closes .brace)
    (hacts : Acts mode role pending between) (hacts' : Acts mode role between next)
    (hknown : ∀ input, known input → (Lookahead.isAt input 0 text &&
      Lookahead.isAt input 1 text && Lookahead.adjacent input 0) = true) :
    Takes mode known 1 pending next := by
  have hparts : ∀ input, known input → (Lookahead.isAt input 0 text = true ∧
      Lookahead.isAt input 1 text = true) ∧ Lookahead.adjacent input 0 = true := by
    intro input h
    simpa using hknown input h
  exact .two (fun _ h => hrole ▸ .of_isAt (hparts _ h).1.1)
    (fun _ h => hrole ▸ .of_isAt (hparts _ h).1.2) hfinal
    (fun _ h => Lookahead.leading_of_adjacent (hparts _ h).2) hacts hacts'

theorem suits_brackets {text : String} (hknown : ∀ input, known input →
    (Lookahead.isAt input 0 text && Lookahead.isAt input 1 text &&
      Lookahead.adjacent input 0) = true) : Suits .token known := by
  have hrole : ∀ input, known input → HasRole input 0 (.ofText text) := by
    intro input h
    have hparts := hknown input h
    simp only [Bool.and_eq_true] at hparts
    exact .of_isAt hparts.1.1
  exact .token hrole

theorem steady_brackets (text : String)
    (h : Role.ofText text ≠ .ends ∧ Role.ofText text ≠ .closes .brace) :
    Steady known fun rest => Lookahead.isAt rest 0 text && Lookahead.isAt rest 1 text &&
      Lookahead.adjacent rest 0 :=
  ((Steady.isAt Passes.zero _).and
    (Steady.isAt (Steady.passes_isAt _ h fun _ => And.right) _)).and
    (Steady.adjacent (Steady.passes_isAt text h fun _ hknown =>
      (Bool.and_eq_true_iff.mp hknown.2).1))

theorem attributeSequence : Twin grammar grammar' depth mode known true pending pending
    Production.attributeSequence Production.attributeSequence :=
  node rfl <| guarded (steady_brackets "[" (by decide)) <|
    (take (suits_brackets fun _ => And.right) (takes_brackets rfl (by decide) (.opens .bracket)
      (.opens .bracket) fun _ => And.right)).followed <|
    (commaSeparated attributeItem).followed <|
    guarded (steady_brackets "]" (by decide)) <|
    take (suits_brackets fun _ => And.right) (takes_brackets rfl (by decide) (.closes .bracket)
      (.closes .bracket) fun _ => And.right)

theorem isAttributeSequence : Steady known Lookahead.isAttributeSequence :=
  steady_brackets "[" (by decide)

theorem anyAttribute : Twin grammar grammar' depth mode known true pending pending
    Production.anyAttribute Production.anyAttribute :=
  node rfl (ifAhead isAttributeSequence attributeSequence attributeSpecifier)

theorem attributes : Twin grammar grammar' depth mode known false pending pending
    Production.attributes Production.attributes :=
  whileAt anyAttribute

/-! ## Numeric types -/

theorem templateArguments {body body' : Production}
    (h : Twin grammar grammar' depth mode Unknown true pending pending body body') :
    Twin grammar grammar' depth mode known true pending pending
      (Production.templateArguments body) (Production.templateArguments body') :=
  (word "<" rfl).followed (h.followed (word ">" rfl))

theorem steady_category (p : Option TypeCategory → Bool) :
    Steady known fun rest => p (Keyword.category? (Lookahead.text rest 0)) :=
  (Steady.text Passes.zero).comp fun word => p (Keyword.category? word)

/-- Behind a word of a category there is another token. -/
theorem passes_category {category : TypeCategory}
    (h : ∀ input, known input → Keyword.category? (Lookahead.text input 0) = some category) :
    Passes known 1 :=
  Passes.zero.succ (fun _ hknown => .of_category (h _ hknown)) (by decide)

theorem scalarType : Twin grammar grammar' depth mode known true pending pending
    Production.scalarType Production.scalarType := by
  refine ifAhead Steady.isUnsignedInt (node rfl ?_) ?_
  · have hparts : ∀ input, known input ∧ Lookahead.isUnsignedInt input = true →
        (Lookahead.isAt input 0 "unsigned" = true ∧ Lookahead.isAt input 1 "int" = true) ∧
          Lookahead.contiguous input 0 = true := by
      intro input h
      simpa [Lookahead.isUnsignedInt] using h.2
    refine take (.token fun _ h => .of_isAt (hparts _ h).1.1) ?_
    exact .two (fun _ h => .of_isAt (hparts _ h).1.1) (fun _ h => .of_isAt (hparts _ h).1.2)
      (by decide) (fun _ h _ => Lookahead.leading_of_contiguous (hparts _ h).2) .plain .plain
  · exact guarded (steady_category (· == some .scalar))
      (tokenNode rfl fun _ h => .of_category (by simpa using h.2))

theorem scalarOrVectorType : Twin grammar grammar' depth mode known true pending pending
    Production.scalarOrVectorType Production.scalarOrVectorType := by
  refine ifAhead ((steady_category (· == some .vector)).and (Steady.isAt ?_ _).not)
    (tokenNode rfl fun _ h => ?_) scalarType
  · exact passes_category fun _ h => by simpa using h.2
  · exact .of_category (by simpa using (Bool.and_eq_true_iff.mp h.2).1)

theorem numericType : Twin grammar grammar' depth mode known true pending pending
    Production.numericType Production.numericType :=
  node rfl <| ifAhead (steady_category (· == some .matrix))
    (tokenNode rfl fun _ h => .of_category (by simpa using h.2)) scalarOrVectorType

/-! ## Expressions -/

theorem expressionExt : Twin grammar grammar' depth .inner known true [] []
    (Production.expressionExt grammar depth) (Production.expressionExt grammar' depth) :=
  inScope <| (node rfl (rule (.expression 0) rfl)).followed <|
    whileAt <| enclose rfl <| (bump (fun _ h => .of_isAt h) .plain).followed <|
      node rfl (rule (.expression 0) rfl)

theorem argumentList : Twin grammar grammar' depth mode known true pending pending
    (Production.argumentList grammar depth) (Production.argumentList grammar' depth) :=
  node rfl <| openParen.followed <|
    (unlessAt (commaSeparated (rule (.expression 0) rfl))).before closeParen

theorem arrayRank : Twin grammar grammar' depth mode known true pending pending
    (Production.arrayRank grammar depth) (Production.arrayRank grammar' depth) :=
  node rfl <| openBracket.followed <| (unlessAt (rule (.expression 0) rfl)).before closeBracket

theorem primary : Twin grammar grammar' depth mode known true pending pending
    (Production.primary grammar depth) (Production.primary grammar' depth) :=
  ifAhead Steady.isLiteral (node rfl literal) <|
  ifAt (node rfl <| (bumpAt (.opens .paren)).followed <|
    (expressionExt.lift rfl).followed closeParen) <|
  ifAhead Steady.isConstructor (node rfl (numericType.followed argumentList)) <|
  ifAhead (Steady.isName.or (Steady.isAt Passes.zero _)) (node rfl idExpression) fail

theorem postfixes : Twin grammar grammar' depth mode known false pending pending
    (Production.postfixes grammar depth) (Production.postfixes grammar' depth) := by
  refine repeated (Steady.isAny _) <| enclose rfl <|
    ifAt ((bumpAt .plain).followed idExpression) <|
    ifAt ((bumpAt (.opens .bracket)).followed <|
      (rule (.expression 0) rfl).followed closeBracket) <|
    ifAt argumentList <| tokenNode rfl fun input h => ?_
  -- what is left of the alternatives are the steps
  obtain ⟨⟨⟨hany, hdot⟩, hbracket⟩, hparen⟩ := h
  simp only [Lookahead.isAny, List.any_cons, List.any_nil, hdot, hbracket, hparen,
    Bool.false_or, Bool.or_false, Bool.or_eq_true] at hany
  rcases hany with hany | hany
  · exact .of_isAt hany
  · exact .of_isAt hany

theorem castTo (predefined : Bool) : Twin grammar grammar' depth .inner known true [.paren] []
    (Production.castTo grammar depth predefined) (Production.castTo grammar' depth predefined) :=
  (rule .type rfl).followed <| (whileAt arrayRank).before <| closeParen.followed <|
    guarded ((Steady.const _).or Steady.isOperandStart) (rule .unary rfl)

theorem cast : Twin grammar grammar' depth .inner
    (fun input => known input ∧ Lookahead.isAt input 0 "(" = true) true [] []
    (Production.cast grammar depth) (Production.cast grammar' depth) :=
  node rfl <| (bumpAt (.opens .paren)).followed <| 
    chooseBy Steady.isPredefinedType fun predefined => castTo predefined

theorem unary : Twin grammar grammar' (depth + 1) .inner known true [] []
    (Production.unary grammar depth) (Production.unary grammar' depth) := by
  have hoperand : ∀ {known}, Twin grammar grammar' (depth + 1) .inner known true [] []
      (Production.inScope (Production.primary grammar (depth + 1) >=>
        Production.postfixes grammar (depth + 1)))
      (Production.inScope (Production.primary grammar' (depth + 1) >=>
        Production.postfixes grammar' (depth + 1))) :=
    inScope (primary.followed postfixes)
  unfold Production.unary Grammar.nested
  split
  · exact fail
  · refine ifAhead (Steady.isAny _) (node rfl ?_) ?_
    · exact (tokenNode rfl fun _ h => .of_isAny h.2 (by decide)).followed (rule .unary rfl)
    · exact ifAt (orElse (by decide) cast hoperand) hoperand

end Twin

/-! ## Operators -/

namespace Infix

/-- An operator has a spelling that plays no part. -/
theorem hasRole_of_ofText? {input : List Lexeme} {operator : Infix}
    (hkind : Lookahead.kind? input 0 = some .punct)
    (h : ofText? (Lookahead.text input 0) = some operator) :
    Lookahead.HasRole input 0 .plain := by
  refine .of_punct hkind fun hmem => ?_
  have hnone : ∀ special ∈ Role.specialTexts, ofText? special = none := by decide
  rw [hnone _ hmem] at h
  cases h

/-- The first token and the `more` behind it play no part, and each of them touches the next. -/
structure Joined (input : List Lexeme) (more : Nat) : Prop where
  plain : ∀ k ≤ more, Lookahead.HasRole input k .plain
  touches : ∀ k < more, Lookahead.adjacent input k = true

variable {input : List Lexeme} {more : Nat}

theorem joined_zero (h : Lookahead.HasRole input 0 .plain) : Joined input 0 where
  plain _ hk := Nat.le_zero.mp hk ▸ h
  touches _ hk := absurd hk (Nat.not_lt_zero _)

/-- One more token is taken where it touches and has the given text. -/
theorem Joined.taking (h : Joined input more) {text : String} (htext : Role.ofText text = .plain) :
    Joined input (if Lookahead.adjacent input more && Lookahead.isAt input (more + 1) text
      then more + 1 else more) := by
  split_ifs with hnext
  · obtain ⟨hadjacent, hat⟩ := Bool.and_eq_true_iff.mp hnext
    refine ⟨fun k hk => ?_, fun k hk => ?_⟩
    · rcases Nat.le_succ_iff.mp hk with hk | rfl
      · exact h.plain k hk
      · exact htext ▸ .of_isAt hat
    · rcases Nat.lt_succ_iff_lt_or_eq.mp hk with hk | rfl
      · exact h.touches k hk
      · exact hadjacent
  · exact h

theorem joined_of_ahead? {operator : Infix} (h : ahead? input = some (operator, more)) :
    Joined input more := by
  unfold ahead? at h
  simp only [beq_iff_eq] at h
  split at h
  · rename_i hpunct
    split at h
    · rename_i hgreater
      have hfirst := joined_zero (.of_punct hpunct (by rw [hgreater]; decide))
      obtain ⟨_, -, hpair⟩ := Option.map_eq_some_iff.mp h
      obtain ⟨-, rfl⟩ := Prod.mk.inj hpair
      exact (hfirst.taking rfl).taking rfl
    · obtain ⟨_, hoperator, hpair⟩ := Option.map_eq_some_iff.mp h
      obtain ⟨-, rfl⟩ := Prod.mk.inj hpair
      exact joined_zero (hasRole_of_ofText? hpunct hoperator)
  · cases h

end Infix

namespace Twin

open Lookahead (HasRole)

variable {grammar grammar' : Grammar} {depth : Nat} {mode : Mode} {known : List Lexeme → Prop}
  {pending : List Closer}

theorem infixTail {operator : Infix} {more : Nat}
    (h : ∀ input, known input → Infix.ahead? input = some (operator, more)) :
    Twin grammar grammar' depth .inner known true [] []
      (Production.infixTail grammar depth more operator)
      (Production.infixTail grammar' depth more operator) := by
  have hjoined : ∀ input, known input → Infix.Joined input more := fun _ hknown =>
    Infix.joined_of_ahead? (h _ hknown)
  have htakes : Takes .inner known more [] [] := .plain (fun _ hknown => (hjoined _ hknown).plain)
    fun _ hknown hspaced k hk =>
      Lookahead.leading_of_adjacent ((hjoined _ hknown).touches k hk) hspaced
  have hfirst : ∀ input, known input → HasRole input 0 .plain := fun _ hknown =>
    (hjoined _ hknown).plain 0 (Nat.zero_le _)
  cases operator with
  | assignment =>
    exact (node rfl (take (.token hfirst) htakes)).followed (node rfl (rule (.expression _) rfl))
  | conditional =>
    exact (bumpPlain hfirst).followed <| expressionExt.followed <| (word ":" rfl).followed <|
      node rfl (rule (.expression _) rfl)
  | binary power =>
    exact (node rfl (take (.token hfirst) htakes)).followed (rule (.expression _) rfl)

theorem infixNext : Twin grammar grammar' depth .inner known true [] []
    (Production.infixNext grammar depth) (Production.infixNext grammar' depth) := by
  refine chooseBy Steady.infixAhead fun ahead => ?_
  cases ahead with
  | none => exact fail
  | some found => exact infixTail fun _ h => h.2

theorem infixes (minPower : Nat) : Twin grammar grammar' depth .inner known false [] []
    (Production.whileAhead (Infix.binds minPower)
      (Production.enclose .expression (Production.infixNext grammar depth)))
    (Production.whileAhead (Infix.binds minPower)
      (Production.enclose .expression (Production.infixNext grammar' depth))) :=
  repeated (Steady.infixBinds minPower) (enclose rfl infixNext)

theorem expression (minPower : Nat) : Twin grammar grammar' depth .inner known true [] []
    (Production.expression grammar minPower depth)
    (Production.expression grammar' minPower depth) :=
  inScope ((rule .unary rfl).followed (infixes minPower))

/-! ## Types -/

theorem userDefinedType : Twin grammar grammar' depth mode known true pending pending
    (Production.userDefinedType grammar depth) (Production.userDefinedType grammar' depth) :=
  node rfl (ifAhead (Steady.isAny _) (ruleDirect .structured rfl) idExpression)

theorem typeofExpression : Twin grammar grammar' depth mode known true pending pending
    (Production.typeofExpression grammar depth) (Production.typeofExpression grammar' depth) :=
  have hchoice : Twin grammar grammar' depth .inner Unknown true [] []
      (Production.orElse
        (grammar .type depth >=> Production.guard (Lookahead.isAt · 0 ")"))
        (Production.expressionExt grammar depth))
      (Production.orElse
        (grammar' .type depth >=> Production.guard (Lookahead.isAt · 0 ")"))
        (Production.expressionExt grammar' depth)) :=
    orElse (by decide)
      ((rule .type rfl).followed (guard (Steady.isAt Passes.zero _))) expressionExt
  node rfl <| (word "typeof" rfl).followed <| openParen.followed <|
    (hchoice.lift rfl).followed <| closeParen.followed <|
    whenAt ((bumpAt .plain).followed idExpression)

theorem templatedType {kind : NodeKind} (hkind : kind.isComposite = true)
    (h : ∀ input, known input → HasRole input 0 .plain) :
    Twin grammar grammar' depth mode known true pending pending
      (Production.templatedType grammar depth kind)
      (Production.templatedType grammar' depth kind) :=
  node hkind ((bumpPlain h).followed (templateArguments (ruleDirect .type rfl)))

theorem typeOfCategory {category : TypeCategory}
    (h : ∀ input, known input → Keyword.category? (Lookahead.text input 0) = some category) :
    Twin grammar grammar' depth mode known true pending pending
      (Production.typeOfCategory grammar depth category)
      (Production.typeOfCategory grammar' depth category) := by
  have hplain : ∀ input, known input → HasRole input 0 .plain :=
    fun _ hknown => .of_category (h _ hknown)
  have htemplate : Steady known (Lookahead.isAt · 1 "<") := Steady.isAt (passes_category h) _
  cases category with
  | void => exact bumpPlain hplain
  | scalar => exact scalarType
  | vector =>
    exact ifAhead htemplate
      (node rfl <| (bumpPlain fun _ hknown => hplain _ hknown.1).followed <|
        templateArguments (scalarType.followed ((word "," rfl).followed integerLiteral)))
      (tokenNode rfl fun _ hknown => hplain _ hknown.1)
  | matrix => exact tokenNode rfl hplain
  | buffer => exact node rfl ((tokenNode rfl hplain).followed (templateArguments numericType))
  | byteAddressBuffer => exact tokenNode rfl hplain
  | patch =>
    exact node rfl <| (bumpPlain hplain).followed <| templateArguments <|
      userDefinedType.followed ((word "," rfl).followed integerLiteral)
  | sampler => exact tokenNode rfl hplain
  | streamOutput => exact templatedType rfl hplain
  | structuredBuffer => exact templatedType rfl hplain
  | texture =>
    exact ifAhead htemplate
      (node rfl <| (tokenNode rfl fun _ hknown => hplain _ hknown.1).followed <|
        templateArguments scalarOrVectorType)
      (tokenNode rfl fun _ hknown => hplain _ hknown.1)
  | msTexture =>
    exact node rfl <| (bumpPlain hplain).followed <| templateArguments <|
      scalarOrVectorType.followed (whenAt ((bumpAt .plain).followed integerLiteral))
  | constantBuffer => exact templatedType rfl hplain
  | otherViewResource => exact tokenNode rfl hplain
  | subobject => exact tokenNode rfl hplain
  | rtxBuiltIn => exact tokenNode rfl hplain

theorem predefinedType : Twin grammar grammar' depth mode known true pending pending
    (Production.predefinedType grammar depth) (Production.predefinedType grammar' depth) := by
  refine node rfl (chooseBy (Steady.text Passes.zero) fun word => ?_)
  unfold Production.typeOfWord
  split
  · rename_i hmatrix
    exact node rfl <| (bumpPlain fun _ h => .of_text (by rw [h.2, hmatrix]; decide)).followed <|
      templateArguments <| scalarType.followed <| (Twin.word "," rfl).followed <|
        integerLiteral.followed <| (Twin.word "," rfl).followed integerLiteral
  · cases hcategory : Keyword.category? word with
    | none => exact scalarType
    | some category => exact typeOfCategory fun _ h => h.2 ▸ hcategory

theorem type : Twin grammar grammar' (depth + 1) mode known true pending pending
    (Production.type grammar depth) (Production.type grammar' depth) := by
  unfold Production.type Grammar.nested
  split
  · exact fail
  · exact node rfl <| ifAt typeofExpression <|
      ifAhead Steady.isPredefinedType predefinedType userDefinedType

theorem storageFlags : Twin grammar grammar' depth mode known false pending pending
    Production.storageFlags Production.storageFlags := by
  refine repeated Steady.isStorageFlag <| node rfl <| ifAhead ?_ ?_ (bumpPlain ?_)
  · exact ((Steady.isAt Passes.zero _).and
      (Steady.isAt (Steady.passes_isAt _ (by decide) fun _ => And.right) _)).and
      (Steady.contiguous (Steady.passes_isAt "in" (by decide) fun _ h =>
        (Bool.and_eq_true_iff.mp h.2).1))
  · have hparts : ∀ input, Lookahead.isStorageFlag input = true ∧
        (Lookahead.isAt input 0 "in" && Lookahead.isAt input 1 "out" &&
          Lookahead.contiguous input 0) = true →
        (Lookahead.isAt input 0 "in" = true ∧ Lookahead.isAt input 1 "out" = true) ∧
          Lookahead.contiguous input 0 = true := by
      intro input h
      simpa using h.2
    refine take (.token fun _ h => .of_isAt (hparts _ h).1.1) ?_
    exact .two (fun _ h => .of_isAt (hparts _ h).1.1) (fun _ h => .of_isAt (hparts _ h).1.2)
      (by decide) (fun _ h _ => Lookahead.leading_of_contiguous (hparts _ h).2) .plain .plain
  · intro input h
    have hflag := h.1
    simp only [Lookahead.isStorageFlag, Bool.and_eq_true, beq_iff_eq] at hflag
    exact .of_kind hflag.1.1 (by decide)

end Twin

end Azsl
