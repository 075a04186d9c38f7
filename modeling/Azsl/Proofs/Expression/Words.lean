/-
Azsl.Proofs.Expression.Words — the tokens of an expression that is written out.

Every word of an expression is a token, but for the operators that start with `>`, which are
made of tokens that touch. What a parse has to know about them is said here once: what operator
is ahead (`Operates`), and what an operand starts with (`Token.Opens`).
-/
import Azsl.Grammar.Parse
import Azsl.Proofs.Expression.Tree
import Azsl.Proofs.Grammar.Plain

namespace Azsl

/-! ## Single tokens -/

/-- A token with a kind and a spelling, which is what stands in the text. -/
structure Token.Spells (chars : List Char) (kind : TokenKind) (word : String) (token : Token) :
    Prop where
  kind_eq : token.kind = kind
  text_eq : token.text = word
  source : sliceBytes? chars token.start.byte token.stop.byte = some word.toList

/-- The bytes between two locations hold what stands there. -/
theorem slice_advance (before middle after : List Char) :
    sliceBytes? (before ++ (middle ++ after)) (Location.origin.advance before).byte
      ((Location.origin.advance before).advance middle).byte = some middle := by
  simp only [Location.byte_advance, Location.origin, Nat.zero_add]
  exact SourceText.sliceBytes?_byteLength before middle after

namespace Spelt

variable {chars : List Char} {word : String} {words : List String} {tokens : List Token}

theorem single {kind : TokenKind} (hpieces : pieces word.toList = [⟨some kind, word.toList⟩])
    (h : Spelt chars (word :: words) tokens) :
    ∃ token rest, tokens = token :: rest ∧ token.Spells chars kind word ∧
      Spelt chars words rest := by
  cases h with
  | @cons before after leads _ _ rest hchars hrest =>
    rw [hpieces]
    refine ⟨_, rest, rfl, ⟨rfl, by simp, ?_⟩, hrest⟩
    rw [hchars]
    exact slice_advance before word.toList after

theorem mark (hword : word ∈ marks) (h : Spelt chars (word :: words) tokens) :
    ∃ token rest, tokens = token :: rest ∧ token.Spells chars .punct word ∧
      Spelt chars words rest :=
  h.single (separate_mark hword).1

theorem name {name : Identifier} (h : Spelt chars (name.text :: words) tokens) :
    ∃ token rest, tokens = token :: rest ∧ token.Spells chars .word name.text ∧
      Spelt chars words rest :=
  h.single (separate_atom name.word rfl).1

theorem number {number : Numeral} (h : Spelt chars (number.text :: words) tokens) :
    ∃ token rest kind, tokens = token :: rest ∧ token.Spells chars kind number.text ∧
      (kind = .integerLiteral ∨ kind = .floatLiteral) ∧ Spelt chars words rest := by
  rcases number.literal with hliteral | hliteral
  · obtain ⟨token, rest, htokens, htoken, hrest⟩ := h.single (separate_atom hliteral rfl).1
    exact ⟨token, rest, _, htokens, htoken, .inl rfl, hrest⟩
  · obtain ⟨token, rest, htokens, htoken, hrest⟩ := h.single (separate_atom hliteral rfl).1
    exact ⟨token, rest, _, htokens, htoken, .inr rfl, hrest⟩

end Spelt

namespace Token.Spells

variable {chars : List Char} {word : String} {token : Token}

theorem is_eq (h : token.Spells chars .punct word) (text : String) :
    token.is text = (word == text) := by
  simp [Token.is, h.kind_eq, h.text_eq]

theorem is_eq_of_word (h : token.Spells chars .word word) (text : String) :
    token.is text = (word == text) := by
  simp [Token.is, h.kind_eq, h.text_eq]

end Token.Spells

namespace Identifier

variable (name : Identifier)

/-- A name is not spelled like punctuation. -/
theorem text_ne {text : String} (h : (Scan.nextToken text.toList).1 ≠ .word) :
    name.text ≠ text := by
  rintro rfl
  rw [name.word] at h
  exact h rfl

theorem text_ne_of_reserved {text : String} (h : Keyword.isReserved text = true) :
    name.text ≠ text := by
  rintro rfl
  rw [name.unreserved] at h
  cases h

theorem category?_eq_none : Keyword.category? name.text = none := by
  have h := name.unreserved
  simp only [Keyword.isReserved, Bool.or_eq_false_iff, Option.isSome_eq_false_iff] at h
  exact Option.isNone_iff_eq_none.mp h.2

end Identifier

/-! ## Words that are not types -/

namespace Keyword

/-- The words for built-in types start with a letter. -/
theorem isLetter_of_category? {word : String} (h : (category? word).isSome = true) :
    ∃ c ∈ word.toList.head?, Scan.isLetter c = true := by
  have hscalars : ∀ scalar ∈ scalarTypes, ∃ c ∈ scalar.toList.head?, Scan.isLetter c = true := by
    simp [scalarTypes]
    decide
  have htables : ∀ table ∈ typeTables, ∀ word ∈ table.1,
      ∃ c ∈ word.toList.head?, Scan.isLetter c = true := by
    simp [typeTables]
    decide
  unfold category? at h
  split_ifs at h with hvoid hvector
  · subst hvoid
    exact ⟨'v', rfl, by decide⟩
  · subst hvector
    exact ⟨'v', rfl, by decide⟩
  · rcases hnumeric : numericCategory? word with _ | category
    · rw [hnumeric, Option.none_or, Option.isSome_map] at h
      obtain ⟨table, htable⟩ := Option.isSome_iff_exists.mp h
      have hword : table.1.contains word = true := by simpa using List.find?_some htable
      exact htables table (List.mem_of_find?_eq_some htable) word (by simpa using hword)
    · unfold numericCategory? at hnumeric
      split at hnumeric
      · cases hnumeric
      · rename_i scalar hfind
        obtain ⟨c, hc, hletter⟩ := hscalars scalar (List.mem_of_find?_eq_some hfind)
        have hfound : scalar.toList.isPrefixOf word.toList = true := by
          simpa using List.find?_some hfind
        obtain ⟨behind, hbehind⟩ := List.isPrefixOf_iff_prefix.mp hfound
        obtain ⟨rest, hrest⟩ := List.head?_eq_some_iff.mp hc
        exact ⟨c, by rw [← hbehind, hrest]; rfl, hletter⟩

end Keyword

theorem Scan.not_isLetter_of_digit {c : Char} (h : isDigit c = true ∨ c = '.') :
    isLetter c = false := by
  rcases h with h | rfl
  · have hle : ∀ {a b : Char}, a ≤ b → a.toNat ≤ b.toNat := fun hle => hle
    simp only [isDigit, Bool.and_eq_true, decide_eq_true_eq] at h
    have hhigh := hle h.2
    simp only [isLetter, Bool.or_eq_false_iff, Bool.and_eq_false_iff, decide_eq_false_iff_not]
    refine ⟨.inl fun hlow => ?_, .inl fun hlow => ?_⟩
    · exact absurd (Nat.le_trans (hle hlow) hhigh) (by decide)
    · exact absurd (Nat.le_trans (hle hlow) hhigh) (by decide)
  · decide

namespace Numeral

/-- A number starts with a digit or a point. -/
theorem head (number : Numeral) :
    ∃ c ∈ number.text.toList.head?, Scan.isDigit c = true ∨ c = '.' := by
  have hatom : Scan.isAtom (Scan.nextToken number.text.toList).1 = true ∧
      (Scan.nextToken number.text.toList).1 ≠ .word := by
    rcases number.literal with h | h <;> rw [h] <;> exact ⟨rfl, by simp⟩
  obtain ⟨c, rest, hchars, hstart⟩ := Scan.startsAtom_of_nextToken hatom.1
  refine ⟨c, by rw [hchars]; rfl, ?_⟩
  rw [hchars, Scan.nextToken_eq_plainToken hstart] at hatom
  by_contra hnot
  obtain ⟨hdigit, hpoint⟩ : Scan.isDigit c = false ∧ c ≠ '.' := by simpa using hnot
  obtain ⟨hwhole, hfloat⟩ := Scan.number_eq_zero hdigit hpoint rest
  simp only [Scan.plainToken, hwhole, hfloat, Nat.lt_irrefl, false_and, if_false] at hatom
  split_ifs at hatom
  · exact hatom.2 rfl
  · exact absurd hatom.1 (by simp [Scan.isAtom])
  · exact absurd hatom.1 (by simp [Scan.isAtom])

theorem category?_eq_none (number : Numeral) : Keyword.category? number.text = none := by
  by_contra hsome
  obtain ⟨c, hc, hletter⟩ := Keyword.isLetter_of_category?
    (Option.isSome_iff_ne_none.mpr hsome)
  obtain ⟨c', hc', hdigit⟩ := number.head
  obtain rfl := Option.mem_unique hc hc'
  rw [Scan.not_isLetter_of_digit hdigit] at hletter
  cases hletter

end Numeral

/-! ## What an operand starts with -/

/-- The tokens that an operand starts with. -/
inductive Token.Opens (chars : List Char) (token : Token) : Prop
  | name (name : Identifier) (h : token.Spells chars .word name.text)
  | number (number : Numeral) (kind : TokenKind) (h : token.Spells chars kind number.text)
      (hkind : kind = .integerLiteral ∨ kind = .floatLiteral)
  | bracket (h : token.Spells chars .punct "(")
  | sign (sign : Expr.Sign) (h : token.Spells chars .punct sign.text)

/-- An operand comes next. -/
def OpensAt (chars : List Char) (tokens : List Token) : Prop :=
  ∃ token rest, tokens = token :: rest ∧ token.Opens chars

namespace Token.Opens

variable {chars : List Char} {token : Token}

/-- An operand starts with no other punctuation. -/
theorem is_eq_false (h : token.Opens chars) {text : String}
    (hpunct : (Scan.nextToken text.toList).1 ≠ .word) (hbracket : text ≠ "(") (hsign : text ∉ ["+", "-", "!", "~", "++", "--"]) :
    token.is text = false := by
  cases h with
  | name name h =>
    rw [h.is_eq_of_word, beq_eq_false_iff_ne]
    exact name.text_ne hpunct
  | number number kind h hkind =>
    rcases hkind with rfl | rfl <;> simp [Token.is, h.kind_eq]
  | bracket h =>
    rw [h.is_eq, beq_eq_false_iff_ne]
    exact Ne.symm hbracket
  | sign sign h =>
    rw [h.is_eq, beq_eq_false_iff_ne]
    rintro rfl
    exact hsign sign.property

theorem category?_eq_none (h : token.Opens chars) : Keyword.category? token.text = none := by
  cases h with
  | name name h =>
    rw [h.text_eq]
    exact name.category?_eq_none
  | number number kind h hkind =>
    rw [h.text_eq]
    exact number.category?_eq_none
  | bracket h =>
    rw [h.text_eq]
    decide
  | sign sign h =>
    have hsigns : ∀ text ∈ ["+", "-", "!", "~", "++", "--"], Keyword.category? text = none := by
      decide
    rw [h.text_eq]
    exact hsigns _ sign.property

/-- An operand does not start with a reserved word. -/
theorem is_reserved (h : token.Opens chars) {text : String}
    (hreserved : Keyword.isReserved text = true) : token.is text = false := by
  have hsigns : ∀ text ∈ "(" :: ["+", "-", "!", "~", "++", "--"],
      Keyword.isReserved text = false := by decide
  cases h with
  | name name h =>
    rw [h.is_eq_of_word, beq_eq_false_iff_ne]
    exact name.text_ne_of_reserved hreserved
  | number number kind h hkind =>
    rcases hkind with rfl | rfl <;> simp [Token.is, h.kind_eq]
  | bracket h =>
    rw [h.is_eq, beq_eq_false_iff_ne]
    rintro rfl
    exact absurd hreserved (by decide)
  | sign sign h =>
    rw [h.is_eq, beq_eq_false_iff_ne]
    rintro rfl
    have hsign := hsigns sign.text (List.mem_cons_of_mem _ sign.property)
    rw [hsign] at hreserved
    cases hreserved

end Token.Opens

/-! ## Operators between operands -/

/-- Tokens that no operator between operands starts with. -/
def closers : List String := ["::", ".", ",", ":", ";", "(", ")", "[", "]", "++", "--"]

/-- Tokens that touch and are an operator if an operand follows them. -/
structure Operates (chars : List Char) (word : String) (operator : Infix) (first : Token)
    (more : List Token) : Prop where
  kind_eq : first.kind = .punct
  source : sliceBytes? chars first.start.byte ((first :: more).getLast (by simp)).stop.byte
    = some word.toList
  ahead : ∀ {rest : List Token}, OpensAt chars rest →
    Infix.ahead? (Lexeme.row (first :: (more ++ rest))) = some (operator, more.length)
  others : ∀ text ∈ closers, first.is text = false
  joined : more ≠ [] → first.is "<" = false
  single : operator = .conditional → more = []

namespace Infix

variable {first : Token} {rest : List Token}

theorem ahead?_of_ne (hkind : first.kind = .punct) (h : first.text ≠ ">") :
    ahead? (Lexeme.row (first :: rest)) = (ofText? first.text).map (·, 0) := by
  simp [ahead?, hkind, h]

end Infix

theorem Token.Spells.operates {chars : List Char} {word : String} {token : Token} {operator : Infix}
    (h : token.Spells chars .punct word) (hgreater : word ≠ ">")
    (hoperator : Infix.ofText? word = some operator) (hcloser : word ∉ closers) :
    Operates chars word operator token [] where
  kind_eq := h.kind_eq
  source := h.source
  ahead _ := by
    rw [Infix.ahead?_of_ne h.kind_eq (by rwa [h.text_eq]), h.text_eq, hoperator]
    rfl
  others text hmem := by
    rw [h.is_eq, beq_eq_false_iff_ne]
    rintro rfl
    exact hcloser hmem
  joined := absurd rfl
  single _ := rfl

/-- A `>` and what is joined to it. -/
theorem operates_greater {chars : List Char} {word : String} {words : List String}
    {tokens : List Token} {operator : Infix} (hgreater : word ∈ [">", ">=", ">>", ">>="])
    (hoperator : Infix.ofText? word = some operator) (h : Spelt chars (word :: words) tokens) :
    ∃ first more rest, tokens = first :: (more ++ rest) ∧ Operates chars word operator first more ∧
      Spelt chars words rest := by
  cases h with
  | @cons before after leads _ _ tokens hchars hrest =>
    have hsource := slice_advance before word.toList after
    rw [← hchars] at hsource
    have hgreater' : ∀ {token : Token}, token.Opens chars → token.is ">" = false := fun htoken =>
      htoken.is_eq_false (by decide) (by decide) (by decide)
    have hequal : ∀ {token : Token}, token.Opens chars → token.is "=" = false := fun htoken =>
      htoken.is_eq_false (by decide) (by decide) (by decide)
    have hothers : ∀ {token : Token}, token.kind = .punct → token.text = ">" →
        ∀ text ∈ closers, token.is text = false := by
      intro token hkind htext text hmem
      have hne : ">" ≠ text := by
        rintro rfl
        exact absurd hmem (by decide)
      simp [Token.is, hkind, htext, hne]
    have hbinary : operator ≠ .conditional := by
      have htable : ∀ word ∈ [">", ">=", ">>", ">>="],
          Infix.ofText? word ≠ some .conditional := by decide
      rintro rfl
      exact htable word hgreater hoperator
    have his : ∀ (start stop : Location) (text other : String) (leads : Bool),
        Token.is ⟨.punct, start, stop, text, leads⟩ other = (text == other) := by simp [Token.is]
    simp only [List.mem_cons, List.not_mem_nil, or_false] at hgreater
    rcases hgreater with rfl | rfl | rfl | rfl
    · have hpieces : pieces ">".toList = [⟨some .punct, ['>']⟩] := by decide
      rw [hpieces]
      refine ⟨_, [], tokens, rfl, ⟨rfl, hsource, ?_, hothers rfl rfl, fun _ => rfl,
        fun h => absurd h hbinary⟩, hrest⟩
      rintro _ ⟨token, rest, rfl, htoken⟩
      simp [Infix.ahead?, hoperator, hgreater' htoken, hequal htoken]
    · have hpieces : pieces ">=".toList = [⟨some .punct, ['>']⟩, ⟨some .punct, ['=']⟩] := by decide
      rw [hpieces]
      refine ⟨_, [_], tokens, rfl, ⟨rfl, hsource, ?_, hothers rfl rfl, fun _ => rfl,
        fun h => absurd h hbinary⟩, hrest⟩
      rintro _ ⟨token, rest, rfl, htoken⟩
      simp [Infix.ahead?, Lookahead.adjacent, his, hoperator]
    · have hpieces : pieces ">>".toList = [⟨some .punct, ['>']⟩, ⟨some .punct, ['>']⟩] := by decide
      rw [hpieces]
      refine ⟨_, [_], tokens, rfl, ⟨rfl, hsource, ?_, hothers rfl rfl, fun _ => rfl,
        fun h => absurd h hbinary⟩, hrest⟩
      rintro _ ⟨token, rest, rfl, htoken⟩
      simp [Infix.ahead?, Lookahead.adjacent, his, hequal htoken, hoperator]
    · have hpieces : pieces ">>=".toList
          = [⟨some .punct, ['>']⟩, ⟨some .punct, ['>']⟩, ⟨some .punct, ['=']⟩] := by decide
      rw [hpieces]
      refine ⟨_, [_, _], tokens, rfl, ⟨rfl, hsource, ?_, hothers rfl rfl, fun _ => rfl,
        fun h => absurd h hbinary⟩, hrest⟩
      rintro _ ⟨token, rest, rfl, htoken⟩
      simp [Infix.ahead?, Lookahead.adjacent, his, hoperator]

namespace Spelt

variable {chars : List Char} {words : List String} {tokens : List Token}

theorem operator {word : String} {operator : Infix}
    (hword : word ∈ marks ∧ word ∉ closers ∨ word ∈ [">", ">=", ">>", ">>="])
    (hoperator : Infix.ofText? word = some operator) (h : Spelt chars (word :: words) tokens) :
    ∃ first more rest, tokens = first :: (more ++ rest) ∧ Operates chars word operator first more ∧
      Spelt chars words rest := by
  rcases hword with ⟨hmark, hcloser⟩ | hgreater
  · obtain ⟨token, rest, htokens, htoken, hrest⟩ := h.mark hmark
    have hgreater : word ≠ ">" := by
      rintro rfl
      exact absurd hmark (by decide)
    exact ⟨token, [], rest, htokens, htoken.operates hgreater hoperator hcloser, hrest⟩
  · exact operates_greater hgreater hoperator h

/-- A binary operator binds with the power of its level. -/
theorem binary {operator : Expr.Binary} (h : Spelt chars (operator.text :: words) tokens) :
    ∃ first more rest, tokens = first :: (more ++ rest) ∧
      Operates chars operator.text (.binary operator.level) first more ∧
      Spelt chars words rest := by
  have htable : ∀ text ∈ Expr.binaryRows.flatten,
      (text ∈ marks ∧ text ∉ closers ∨ text ∈ [">", ">=", ">>", ">>="]) ∧
      Infix.ofText? text = some (.binary
        (Expr.conditionalLevel + 1 + Expr.binaryRows.findIdx (·.contains text))) := by decide
  obtain ⟨hword, hoperator⟩ := htable operator.text operator.property
  exact h.operator hword hoperator

theorem assign {operator : Expr.Assign} (h : Spelt chars (operator.text :: words) tokens) :
    ∃ first more rest, tokens = first :: (more ++ rest) ∧
      Operates chars operator.text .assignment first more ∧ Spelt chars words rest := by
  have htable : ∀ text ∈ ["=", "*=", "/=", "%=", "+=", "-=", "<<=", ">>=", "&=", "^=", "|="],
      (text ∈ marks ∧ text ∉ closers ∨ text ∈ [">", ">=", ">>", ">>="]) ∧
      Infix.ofText? text = some .assignment := by decide
  obtain ⟨hword, hoperator⟩ := htable operator.text operator.property
  exact h.operator hword hoperator

end Spelt

/-! ## Expressions in words -/

namespace Expr

theorem forall_mem_enclosed {P : String → Prop} (hopen : P "(") (hclose : P ")") {least level : Nat}
    {words : List String} (h : ∀ word ∈ words, P word) :
    ∀ word ∈ enclosed least level words, P word := by
  unfold enclosed
  split
  · simpa [hopen, hclose, or_imp, forall_and] using h
  · exact h

theorem forall_mem_wordsAll {P : String → Prop} (hcomma : P ",") {arguments : List Expr}
    (h : ∀ argument ∈ arguments, ∀ word ∈ argument.words, P word) :
    ∀ word ∈ wordsAll arguments, P word := by
  induction arguments with
  | nil => simp [wordsAll]
  | cons argument others ih =>
    have hargument := h argument List.mem_cons_self
    have hothers := ih fun other hmem => h other (List.mem_cons_of_mem _ hmem)
    cases others with
    | nil => exact hargument
    | cons next others =>
      rw [wordsAll]
      · simp only [List.forall_mem_append, List.forall_mem_cons]
        exact ⟨hargument, hcomma, hothers⟩
      · simp

theorem separate_operator {word : String}
    (h : word ∈ marks ∨ word ∈ [">", ">=", ">>", ">>="]) : Separate word.toList := by
  rcases h with hmark | hgreater
  · exact (separate_mark hmark).2
  · have hequal : Separate "=".toList := (separate_mark (by decide)).2
    have hsingle : Separate ">".toList := (separate_greater (.inl rfl)).2
    simp only [List.mem_cons, List.not_mem_nil, or_false] at hgreater
    rcases hgreater with rfl | rfl | rfl | rfl
    · exact hsingle
    · exact (separate_greater (.inr hequal)).2
    · exact (separate_greater (.inr hsingle)).2
    · exact (separate_greater (.inr (separate_greater (.inr hequal)).2)).2

/-- The words of an expression are the same tokens before a separator as alone. -/
theorem separate_words (e : Expr) : ∀ word ∈ e.words, Separate word.toList := by
  have hmark : ∀ {word : String}, word ∈ marks → Separate word.toList :=
    fun hword => (separate_mark hword).2
  have henclosed : ∀ {least level : Nat} {words : List String},
      (∀ word ∈ words, Separate word.toList) →
        ∀ word ∈ enclosed least level words, Separate word.toList :=
    forall_mem_enclosed (hmark (by decide)) (hmark (by decide))
  induction e using rec_parts with
  | name identifier =>
    simpa [words] using (separate_atom identifier.word rfl).2
  | number numeral =>
    rcases numeral.literal with h | h
    · simpa [words] using (separate_atom h rfl).2
    · simpa [words] using (separate_atom h rfl).2
  | member owner field ih =>
    simp only [words, List.forall_mem_append, List.forall_mem_cons]
    exact ⟨henclosed ih, hmark (by decide), (separate_atom field.word rfl).2, by simp⟩
  | index array position iharray ihposition =>
    simp only [words, List.forall_mem_append, List.forall_mem_cons]
    exact ⟨henclosed iharray, hmark (by decide), ihposition, hmark (by decide), by simp⟩
  | call function arguments ihfunction iharguments =>
    simp only [words, List.forall_mem_append, List.forall_mem_cons]
    exact ⟨henclosed ihfunction, hmark (by decide),
      forall_mem_wordsAll (hmark (by decide)) iharguments, hmark (by decide), by simp⟩
  | stepped operand operator ih =>
    have hstep : ∀ text ∈ ["++", "--"], text ∈ marks := by decide
    simp only [words, List.forall_mem_append, List.forall_mem_cons]
    exact ⟨henclosed ih, hmark (hstep _ operator.property), by simp⟩
  | signed operator operand ih =>
    have hsign : ∀ text ∈ ["+", "-", "!", "~", "++", "--"], text ∈ marks := by decide
    simp only [words, List.forall_mem_cons]
    exact ⟨hmark (hsign _ operator.property), henclosed ih⟩
  | binary operator left right ihleft ihright =>
    have hbinary : ∀ text ∈ binaryRows.flatten, text ∈ marks ∨ text ∈ [">", ">=", ">>", ">>="] := by
      decide
    simp only [words, List.forall_mem_append, List.forall_mem_cons]
    exact ⟨henclosed ihleft, separate_operator (hbinary _ operator.property), henclosed ihright⟩
  | conditional condition yes no ihcondition ihyes ihno =>
    simp only [words, List.forall_mem_append, List.forall_mem_cons]
    exact ⟨henclosed ihcondition, hmark (by decide), ihyes, hmark (by decide), henclosed ihno⟩
  | assignment operator target value ihtarget ihvalue =>
    have hassign : ∀ text ∈ ["=", "*=", "/=", "%=", "+=", "-=", "<<=", ">>=", "&=", "^=", "|="],
        text ∈ marks ∨ text ∈ [">", ">=", ">>", ">>="] := by decide
    simp only [words, List.forall_mem_append, List.forall_mem_cons]
    exact ⟨henclosed ihtarget, separate_operator (hassign _ operator.property), henclosed ihvalue⟩

/-- The first of some words starts an operand. -/
def Opening (chars : List Char) (words : List String) : Prop :=
  ∀ tokens, Spelt chars words tokens → ∀ behind, OpensAt chars (tokens ++ behind)

variable {chars : List Char} {words : List String}

theorem Opening.append (h : Opening chars words) (others : List String) :
    Opening chars (words ++ others) := by
  intro tokens htokens behind
  obtain ⟨front, back, rfl, hfront, -⟩ := htokens.append
  rw [List.append_assoc]
  exact h front hfront _

theorem Opening.enclosed (h : Opening chars words) (least level : Nat) :
    Opening chars (enclosed least level words) := by
  unfold Expr.enclosed
  split
  · intro tokens htokens behind
    obtain ⟨token, rest, rfl, htoken, -⟩ := htokens.mark (by decide)
    exact ⟨token, _, rfl, .bracket htoken⟩
  · exact h

/-- An expression is an operand from its first word on. -/
theorem opening_words (e : Expr) : Opening chars e.words := by
  induction e using rec_parts with
  | name identifier =>
    intro tokens htokens behind
    obtain ⟨token, rest, rfl, htoken, -⟩ := htokens.name
    exact ⟨token, _, rfl, .name identifier htoken⟩
  | number numeral =>
    intro tokens htokens behind
    obtain ⟨token, rest, kind, rfl, htoken, hkind, -⟩ := htokens.number
    exact ⟨token, _, rfl, .number numeral kind htoken hkind⟩
  | signed operator operand ih =>
    have hsign : ∀ text ∈ ["+", "-", "!", "~", "++", "--"], text ∈ marks := by decide
    intro tokens htokens behind
    obtain ⟨token, rest, rfl, htoken, -⟩ := htokens.mark (hsign _ operator.property)
    exact ⟨token, _, rfl, .sign operator htoken⟩
  | member owner field ih => exact (ih.enclosed _ _).append _
  | index array position ih _ => exact (ih.enclosed _ _).append _
  | call function arguments ih _ => exact (ih.enclosed _ _).append _
  | stepped operand operator ih => exact (ih.enclosed _ _).append _
  | binary operator left right ih _ => exact (ih.enclosed _ _).append _
  | conditional condition yes no ih _ _ => exact (ih.enclosed _ _).append _
  | assignment operator target value ih _ => exact (ih.enclosed _ _).append _

end Expr

end Azsl
