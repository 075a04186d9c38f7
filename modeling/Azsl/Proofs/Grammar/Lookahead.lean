/-
Azsl.Proofs.Grammar.Lookahead — what the grammar asks about its input is steady.

A lookahead may pass over a token only if that token closes no declaration. Inside a bounded
stretch of input there is then a further token to look at, so the answer is the same wherever
the stretch stands and whatever follows it. Steady lookaheads are built from steady ones; a
condition that guards another passes on what it found out.
-/
import Azsl.Grammar.Expression
import Azsl.Proofs.Grammar.Twin

namespace Azsl

/-! ## Building steady lookaheads -/

namespace Steady

variable {α β : Type} {known : List Lexeme → Prop}

theorem const (a : α) : Steady known fun _ => a :=
  ⟨fun _ => rfl, fun _ _ _ _ _ => rfl⟩

/-- What is looked at second may depend on what was found first. -/
theorem bind {first : List Lexeme → α} (h : Steady known first)
    (second : α → List Lexeme → β)
    (hs : ∀ a, Steady (fun input => known input ∧ first input = a) (second a)) :
    Steady known fun input => second (first input) input where
  bare input := by rw [h.bare, (hs _).bare]
  stays := by
    intro d e pending left right after after' halike hbounded hne hsound hknown
    rw [← h.stays halike hbounded hne hsound hknown]
    exact (hs _).stays halike hbounded hne hsound ⟨hknown, rfl⟩

theorem comp {look : List Lexeme → α} (h : Steady known look) (f : α → β) :
    Steady known fun input => f (look input) :=
  h.bind (fun a _ => f a) fun a => const (f a)

theorem not {look : List Lexeme → Bool} (h : Steady known look) :
    Steady known fun input => !look input :=
  h.comp Bool.not

theorem and {first second : List Lexeme → Bool} (h : Steady known first)
    (h' : Steady (fun input => known input ∧ first input = true) second) :
    Steady known fun input => first input && second input :=
  h.bind (fun a input => a && second input) fun a => by
    cases a with
    | false => simpa using const false
    | true => simpa using h'

theorem or {first second : List Lexeme → Bool} (h : Steady known first)
    (h' : Steady (fun input => known input ∧ first input = false) second) :
    Steady known fun input => first input || second input :=
  h.bind (fun a input => a || second input) fun a => by
    cases a with
    | false => simpa using h'
    | true => simpa using const true

theorem ite {condition : List Lexeme → Bool} {yes no : List Lexeme → α}
    (h : Steady known condition)
    (hyes : Steady (fun input => known input ∧ condition input = true) yes)
    (hno : Steady (fun input => known input ∧ condition input = false) no) :
    Steady known fun input => if condition input then yes input else no input :=
  h.bind (fun a input => if a then yes input else no input) fun a => by
    cases a with
    | false => simpa using hno
    | true => simpa using hyes

end Steady

/-! ## Tokens at an index -/

namespace Lookahead

/-- Kind and text of the `n`-th token ahead. -/
def seen (input : List Lexeme) (n : Nat) : Option (TokenKind × String) :=
  (token? input n).map fun token => (token.kind, token.text)

theorem kind?_eq_seen (input : List Lexeme) (n : Nat) :
    kind? input n = (seen input n).map (·.1) := by
  simp [kind?, seen, Function.comp_def]

theorem text_eq_seen (input : List Lexeme) (n : Nat) :
    text input n = ((seen input n).map (·.2)).getD "" := by
  simp [text, seen, Function.comp_def]

theorem isAt_eq_seen (input : List Lexeme) (n : Nat) (text : String) :
    isAt input n text = (seen input n).any fun token =>
      (token.1 == .word || token.1 == .punct) && token.2 == text := by
  unfold isAt seen
  cases token? input n <;> rfl

theorem token?_bare (input : List Lexeme) (n : Nat) :
    token? (Lexeme.bare input) n = token? input n := by
  cases input with
  | nil => rfl
  | cons first others => cases n <;> rfl

theorem isAt_bare (input : List Lexeme) (n : Nat) (text : String) :
    isAt (Lexeme.bare input) n text = isAt input n text := by
  rw [isAt, isAt, token?_bare]

/-- Whether an item of a block is ahead does not depend on the trivia before it. -/
theorem item_bare {input : List Lexeme} :
    Lexeme.bare input ≠ [] ∧ isAt (Lexeme.bare input) 0 "\x7d" = false ↔
      input ≠ [] ∧ isAt input 0 "\x7d" = false := by
  rw [isAt_bare, Ne, Lexeme.bare_eq_nil]

/-- The `n`-th token ahead has a text, plays a part in nesting and is not foreign. -/
def HasRole (input : List Lexeme) (n : Nat) (role : Role) : Prop :=
  ∃ token, token? input n = some token ∧ (token.Sound → token.role = role) ∧ token.Solid ∧
    (token.Legible → token.isForeign = false)

theorem HasRole.of_isAt {input : List Lexeme} {n : Nat} {text : String}
    (h : isAt input n text = true) : HasRole input n (.ofText text) := by
  unfold isAt at h
  cases ht : token? input n with
  | none => simp [ht] at h
  | some token =>
    have his : token.is text = true := by simpa [ht] using h
    exact ⟨token, ht, fun _ => Token.role_of_is his, Token.solid_of_is his,
      fun _ => Token.isForeign_of_is his⟩

theorem HasRole.of_isAny {input : List Lexeme} {texts : List String} {role : Role}
    (h : isAny input texts = true) (hrole : ∀ text ∈ texts, Role.ofText text = role) :
    HasRole input 0 role := by
  obtain ⟨text, hmem, hat⟩ := List.any_eq_true.mp h
  exact hrole text hmem ▸ .of_isAt hat

/-- The kinds of tokens that play no part, whatever their text. -/
def isPlainKind (kind : TokenKind) : Bool :=
  kind != .punct && kind != .unknown && kind != .includePath && kind != .includeDirective

theorem HasRole.of_kind {input : List Lexeme} {n : Nat} {kind : TokenKind}
    (h : kind? input n = some kind) (hkind : isPlainKind kind = true) :
    HasRole input n .plain := by
  unfold kind? at h
  obtain ⟨token, ht, rfl⟩ := Option.map_eq_some_iff.mp h
  simp only [isPlainKind, Bool.and_eq_true, bne_iff_ne] at hkind
  obtain ⟨⟨⟨hpunct, hunknown⟩, hpath⟩, hdirective⟩ := hkind
  exact ⟨token, ht, fun hsound => Token.role_eq_plain_of_kind hsound hpunct hunknown,
    fun h => absurd h hpath, fun _ => Token.isForeign_of_kind ⟨hunknown, hdirective⟩⟩

/-- Punctuation that is not in the table of special texts. -/
theorem HasRole.of_punct {input : List Lexeme} {n : Nat} (h : kind? input n = some .punct)
    (htext : text input n ∉ Role.specialTexts) : HasRole input n .plain := by
  unfold kind? at h
  obtain ⟨token, ht, hkind⟩ := Option.map_eq_some_iff.mp h
  have hsame : text input n = token.text := by simp [text, ht]
  refine ⟨token, ht, fun _ => Token.role_eq_plain_of_text (hsame ▸ htext), fun hpath => ?_,
    fun _ => Token.isForeign_of_kind (by simp [hkind])⟩
  rw [hkind] at hpath
  cases hpath

/-- The spelling of a keyword: special texts are shorter, directives start otherwise. -/
def IsKeyword (word : String) : Prop :=
  1 < word.toList.length ∧ word.toList.head? ≠ some '#'

instance (word : String) : Decidable (IsKeyword word) :=
  inferInstanceAs (Decidable (_ ∧ _))

theorem IsKeyword.not_special {word : String} (h : IsKeyword word) :
    word ∉ "" :: Role.specialTexts := by
  have hshort : ∀ special ∈ "" :: Role.specialTexts, special.toList.length ≤ 1 := by decide
  intro hmem
  exact absurd h.1 (Nat.not_lt.mpr (hshort word hmem))

/-- The text of a keyword makes a token plain, whatever its kind. -/
theorem HasRole.of_text {input : List Lexeme} {n : Nat} (h : IsKeyword (text input n)) :
    HasRole input n .plain := by
  have hspecial := h.not_special
  cases ht : token? input n with
  | none => simp [text, ht] at hspecial
  | some token =>
    have htext : text input n = token.text := by simp [text, ht]
    rw [htext] at h hspecial
    refine ⟨token, ht, fun _ => Token.role_eq_plain_of_text fun hmem => ?_, fun _ hempty => ?_,
      fun hlegible => Token.isForeign_of_kind ⟨fun hkind => ?_, fun hkind => ?_⟩⟩
    · exact hspecial (List.mem_cons_of_mem _ hmem)
    · exact hspecial (hempty ▸ List.mem_cons_self)
    · have hlong := h.1
      rw [hlegible.unknown hkind] at hlong
      exact absurd hlong (by decide)
    · exact h.2 (by rw [hlegible.directive hkind]; rfl)

/-- What starts with a keyword is spelled like one. -/
theorem IsKeyword.of_start {front word : String} (h : IsKeyword front)
    (hstarts : front.toList <+: word.toList) : IsKeyword word := by
  obtain ⟨hlong, hhead⟩ := h
  refine ⟨Nat.lt_of_lt_of_le hlong hstarts.length_le, ?_⟩
  obtain ⟨behind, hword⟩ := hstarts
  rw [← hword]
  cases hfront : front.toList with
  | nil => simp [hfront] at hlong
  | cons c rest => simpa [hfront] using hhead

theorem isKeyword_of_category {word : String} {category : TypeCategory}
    (h : Keyword.category? word = some category) : IsKeyword word := by
  have hscalars : ∀ scalar ∈ Keyword.scalarTypes, IsKeyword scalar := by decide
  have htables : ∀ table ∈ Keyword.typeTables, ∀ name ∈ table.1, IsKeyword name := by
    decide +kernel
  unfold Keyword.category? at h
  split_ifs at h with hvoid hvector
  · exact hvoid ▸ (by decide)
  · exact hvector ▸ (by decide)
  · rcases Option.or_eq_some_iff.mp h with hnumeric | ⟨-, hfound⟩
    · unfold Keyword.numericCategory? at hnumeric
      split at hnumeric
      · cases hnumeric
      · rename_i scalar hfind
        have hfront : scalar.toList.isPrefixOf word.toList = true :=
          List.find?_some (p := fun scalar : String => scalar.toList.isPrefixOf word.toList) hfind
        exact (hscalars scalar (List.mem_of_find?_eq_some hfind)).of_start
          (List.isPrefixOf_iff_prefix.mp hfront)
    · obtain ⟨table, hfind, -⟩ := Option.map_eq_some_iff.mp hfound
      exact htables table (List.mem_of_find?_eq_some hfind) word
        (by simpa using List.find?_some hfind)

theorem HasRole.of_category {input : List Lexeme} {n : Nat} {category : TypeCategory}
    (h : Keyword.category? (text input n) = some category) : HasRole input n .plain :=
  .of_text (isKeyword_of_category h)

theorem HasRole.lt_length {input : List Lexeme} {n : Nat} {role : Role}
    (h : HasRole input n role) : n < input.length := by
  obtain ⟨token, ht, -⟩ := h
  unfold token? at ht
  obtain ⟨lexeme, hget, -⟩ := Option.map_eq_some_iff.mp ht
  exact (List.getElem?_eq_some_iff.mp hget).1

end Lookahead

namespace Passes

variable {known : List Lexeme → Prop} {count : Nat}

theorem zero : Passes known 0 := by
  intro input _ lexeme hmem
  simp at hmem

/-- A bounded stretch goes on behind tokens that close no declaration. -/
theorem lt_length (h : Passes known count) {pending : List Closer} {left after : List Lexeme}
    (hbounded : Bounded pending left) (hne : left ≠ []) (hsound : SoundInput left)
    (hknown : known (left ++ after)) : count < left.length := by
  by_contra hlt
  have hle : left.length ≤ count := by omega
  have hlast : left.getLast hne ∈ (left ++ after).take count := by
    rw [List.take_append, List.take_of_length_le hle]
    exact List.mem_append_left _ (List.getLast_mem hne)
  have hfinal := hbounded.2 _ (List.getLast?_eq_some_getLast hne)
  rw [h _ hknown _ hlast (hsound _ (List.getLast_mem hne))] at hfinal
  cases hfinal

theorem succ (h : Passes known count) {role : Role}
    (hrole : ∀ input, known input → Lookahead.HasRole input count role)
    (hfinal : role ≠ .ends ∧ role ≠ .closes .brace) : Passes known (count + 1) := by
  intro input hknown lexeme hmem hsound
  rw [List.take_add_one, List.mem_append] at hmem
  rcases hmem with hmem | hmem
  · exact h input hknown lexeme hmem hsound
  · obtain ⟨token, ht, htoken, -⟩ := hrole input hknown
    simp only [Option.mem_toList] at hmem
    simp only [Lookahead.token?, hmem, Option.map_some, Option.some.injEq] at ht
    subst ht
    simp [Token.isFinal, htoken hsound, hfinal]

end Passes

/-- Alike inputs have alike lexemes at every index. -/
theorem Alike.getElem? {d e n : Nat} {left right : List Lexeme} (h : Alike d e left right)
    (hlt : n < left.length) (after after' : List Lexeme) :
    ∃ a b, (left ++ after)[n]? = some a ∧ (right ++ after')[n]? = some b ∧
      a.lift d = b.lift e := by
  have hlen := h.length_eq
  refine ⟨left[n], right.get ⟨n, by omega⟩, ?_, ?_, ?_⟩
  · rw [List.getElem?_append_left hlt, List.getElem?_eq_getElem hlt]
  · rw [List.getElem?_append_left (by omega), List.getElem?_eq_getElem (by omega)]
    rfl
  · have := congrArg (fun l => l[n]?) h
    simpa [List.getElem?_eq_getElem hlt, List.getElem?_eq_getElem (hlen ▸ hlt)] using this

namespace Steady

open Lookahead

variable {known : List Lexeme → Prop} {count : Nat}

/-! ## Lookaheads of the grammar -/

theorem seen (h : Passes known count) : Steady known (Lookahead.seen · count) where
  bare input := by rw [Lookahead.seen, Lookahead.seen, token?_bare]
  stays := by
    intro d e pending left right after after' halike hbounded hne hsound hknown
    have hlt := h.lt_length hbounded hne hsound hknown
    obtain ⟨a, b, ha, hb, hab⟩ := halike.getElem? hlt after after'
    obtain ⟨hkind, htext, -⟩ := Token.lift_eq_iff.mp (Lexeme.token_lift_eq hab)
    simp [Lookahead.seen, token?, ha, hb, hkind, htext]

theorem kind? (h : Passes known count) : Steady known (Lookahead.kind? · count) := by
  simp only [kind?_eq_seen]
  exact (seen h).comp _

theorem text (h : Passes known count) : Steady known (Lookahead.text · count) := by
  simp only [text_eq_seen]
  exact (seen h).comp fun found => (found.map (·.2)).getD ""

theorem isAt (h : Passes known count) (wanted : String) :
    Steady known (Lookahead.isAt · count wanted) := by
  simp only [isAt_eq_seen]
  exact (seen h).comp fun found => found.any fun token =>
    (token.1 == .word || token.1 == .punct) && token.2 == wanted

theorem isAny (texts : List String) : Steady known (Lookahead.isAny · texts) := by
  have hany : ∀ input, Lookahead.isAny input texts = texts.any fun wanted =>
      (Lookahead.seen input 0).any fun token =>
        (token.1 == .word || token.1 == .punct) && token.2 == wanted := by
    intro input
    exact congrArg texts.any (funext fun wanted => isAt_eq_seen input 0 wanted)
  simp only [hany]
  exact (seen Passes.zero).comp fun found => texts.any fun wanted => found.any fun token =>
    (token.1 == .word || token.1 == .punct) && token.2 == wanted

theorem adjacent (h : Passes known (count + 1)) :
    Steady known (Lookahead.adjacent · count) where
  bare input := by rw [Lookahead.adjacent, Lookahead.adjacent, token?_bare, token?_bare]
  stays := by
    intro d e pending left right after after' halike hbounded hne hsound hknown
    have hlt := h.lt_length hbounded hne hsound hknown
    obtain ⟨a, b, ha, hb, hab⟩ := halike.getElem? (by omega : count < left.length) after after'
    obtain ⟨a', b', ha', hb', hab'⟩ := halike.getElem? hlt after after'
    obtain ⟨-, -, -, hstop⟩ := Token.lift_eq_iff.mp (Lexeme.token_lift_eq hab)
    obtain ⟨-, -, hstart, -⟩ := Token.lift_eq_iff.mp (Lexeme.token_lift_eq hab')
    simp only [Lookahead.adjacent, token?, ha, hb, ha', hb', Option.map_some]
    rw [Bool.eq_iff_iff, beq_iff_eq, beq_iff_eq]
    omega

theorem contiguous (h : Passes known (count + 1)) :
    Steady known (Lookahead.contiguous · count) where
  bare input := by
    cases input with
    | nil => rfl
    | cons first others => rfl
  stays := by
    intro d e pending left right after after' halike hbounded hne hsound hknown
    have hlt := h.lt_length hbounded hne hsound hknown
    obtain ⟨a, b, ha, hb, hab⟩ := halike.getElem? hlt after after'
    simp only [Lexeme.lift, Lexeme.mk.injEq] at hab
    have hlen := congrArg List.length hab.1
    simp only [List.length_map] at hlen
    simp only [Lookahead.contiguous, ha, hb]
    rw [Bool.eq_iff_iff, List.isEmpty_iff_length_eq_zero, List.isEmpty_iff_length_eq_zero, hlen]

theorem isName : Steady known (Lookahead.isName · 0) :=
  ((kind? Passes.zero).comp (· == some .word)).and
    ((text Passes.zero).comp fun word => !Keyword.isReserved word)

theorem isCompilerExtension : Steady known Lookahead.isCompilerExtension :=
  isAny _

theorem isSwitchLabel : Steady known Lookahead.isSwitchLabel :=
  isAny _

theorem isLiteral : Steady known Lookahead.isLiteral :=
  ((((kind? Passes.zero).comp (· == some .integerLiteral)).or
    ((kind? Passes.zero).comp (· == some .floatLiteral))).or
    ((kind? Passes.zero).comp (· == some .stringLiteral))).or (isAny _)

/-- Behind a given token that closes no declaration there is another. -/
theorem passes_isAt (wanted : String)
    (hrole : Role.ofText wanted ≠ .ends ∧ Role.ofText wanted ≠ .closes .brace)
    (h : ∀ input, known input → Lookahead.isAt input 0 wanted = true) : Passes known 1 :=
  Passes.zero.succ (fun input hknown => .of_isAt (h input hknown)) hrole

theorem passes_word (h : ∀ input, known input → Lookahead.kind? input 0 = some .word) :
    Passes known 1 :=
  Passes.zero.succ (fun input hknown => .of_kind (h input hknown) (by decide)) (by decide)

theorem isUnsignedInt : Steady known Lookahead.isUnsignedInt := by
  unfold Lookahead.isUnsignedInt
  refine ((isAt Passes.zero _).and (isAt (passes_isAt _ ?_ fun _ => And.right) _)).and (contiguous ?_)
  · decide
  · exact passes_isAt "unsigned" (by decide) fun _ h => (Bool.and_eq_true_iff.mp h.2).1

theorem isPredefinedType : Steady known Lookahead.isPredefinedType := by
  unfold Lookahead.isPredefinedType
  refine ((kind? Passes.zero).comp (· == some .word)).and ?_
  refine (((text Passes.zero).comp fun word => (Keyword.category? word).isSome).or
    isUnsignedInt).or (((text Passes.zero).comp (· == "matrix")).and (isAt ?_ _))
  exact passes_word fun _ h => by simpa using h.1.1.2

theorem startsType : Steady known Lookahead.startsType := by
  unfold Lookahead.startsType
  exact ((kind? Passes.zero).comp (· == some .word)).ite
    ((text Passes.zero).comp fun word =>
      !Keyword.isReserved word || (Keyword.category? word).isSome ||
        ["typeof", "unsigned", "struct", "class", "interface", "enum"].contains word)
    (isAt Passes.zero _)

/-- `Lookahead.isOperandStart` of an input whose first token is of a kind. -/
def operandOf (kind : Option TokenKind) (rest : List Lexeme) : Bool :=
  match kind with
  | some .integerLiteral | some .floatLiteral | some .stringLiteral => true
  | some .word =>
    let word := Lookahead.text rest 0
    !Keyword.isReserved word || (Keyword.category? word).isSome || word == "true" ||
      word == "false"
  | some .punct => Lookahead.isAny rest ["(", "::"]
  | _ => false

theorem isOperandStart : Steady known Lookahead.isOperandStart := by
  refine (kind? Passes.zero).bind operandOf fun kind => ?_
  unfold operandOf
  split
  · exact const true
  · exact const true
  · exact const true
  · exact (text Passes.zero).comp fun word =>
      !Keyword.isReserved word || (Keyword.category? word).isSome || word == "true" ||
        word == "false"
  · exact isAny _
  · exact const false

theorem isStorageFlag : Steady known Lookahead.isStorageFlag := by
  unfold Lookahead.isStorageFlag
  refine (((kind? Passes.zero).comp (· == some .word)).and
    ((text Passes.zero).comp Keyword.isStorageFlag)).and ?_
  have hword : ∀ {known : List Lexeme → Prop}, Passes (fun input => known input ∧
      (Lookahead.kind? input 0 == some .word && Keyword.isStorageFlag (Lookahead.text input 0))
        = true) 1 :=
    passes_word fun _ h => by simpa using (Bool.and_eq_true_iff.mp h.2).1
  refine ((kind? hword).comp (· == some .word)).ite ?_ (isAt (fun _ h => hword _ h.1) _)
  have htwo : Passes (fun input => (known input ∧
      (Lookahead.kind? input 0 == some .word && Keyword.isStorageFlag (Lookahead.text input 0))
        = true) ∧ (Lookahead.kind? input 1 == some .word) = true) 2 := by
    refine Passes.succ (fun _ h => hword _ h.1) (fun _ h => ?_) (by decide : Role.plain ≠ _ ∧ _)
    exact HasRole.of_kind (by simpa using h.2) (by decide)
  refine ((text fun _ h => hword _ h.1).comp fun next =>
    Keyword.isReserved next || Keyword.isStorageFlag next || next == "unsigned" ||
      next == "matrix").or ?_
  exact (text fun _ h => htwo _ h.1).comp fun word =>
    !([";", "=", ",", "[", ":", ")"].contains word)

/-- `Lookahead.isConstructor` of an input whose first word is of a category. -/
def constructorOf (category : Option TypeCategory) (rest : List Lexeme) : Bool :=
  match category with
  | some .scalar | some .vector | some .matrix => Lookahead.isAt rest 1 "("
  | _ => false

theorem isConstructor : Steady known Lookahead.isConstructor := by
  unfold Lookahead.isConstructor
  have hunsigned : Passes (fun input => known input ∧
      (Lookahead.isAt input 0 "unsigned" && Lookahead.isAt input 1 "int") = true) 1 :=
    passes_isAt "unsigned" (by decide) fun _ h => (Bool.and_eq_true_iff.mp h.2).1
  refine ((isAt Passes.zero _).and (isAt (passes_isAt _ ?_ fun _ => And.right) _)).ite
    (isAt (hunsigned.succ (fun _ h => .of_isAt (Bool.and_eq_true_iff.mp h.2).2) ?_) _) ?_
  · decide
  · decide
  refine ((text Passes.zero).comp Keyword.category?).bind constructorOf fun category => ?_
  have hone : ∀ {category}, Steady (fun input => (known input ∧
      (Lookahead.isAt input 0 "unsigned" && Lookahead.isAt input 1 "int") = false) ∧
      Keyword.category? (Lookahead.text input 0) = some category)
      (Lookahead.isAt · 1 "(") := by
    intro category
    exact isAt (Passes.zero.succ (fun _ h => .of_category h.2) (by decide)) _
  unfold constructorOf
  split
  · exact hone
  · exact hone
  · exact hone
  · exact const false

end Steady

/-! ## Qualified names -/

namespace Lookahead

theorem isName_singleton_eq {d e : Nat} {a b : Lexeme} (h : a.lift d = b.lift e) :
    isName [a] 0 = isName [b] 0 := by
  obtain ⟨hkind, htext, -⟩ := Token.lift_eq_iff.mp (Lexeme.token_lift_eq h)
  simp [isName, kind?, text, token?, hkind, htext]

theorem is_eq_of_lift {d e : Nat} {a b : Lexeme} (h : a.lift d = b.lift e) (wanted : String) :
    a.token.is wanted = b.token.is wanted := by
  obtain ⟨hkind, htext, -⟩ := Token.lift_eq_iff.mp (Lexeme.token_lift_eq h)
  rw [Token.is, Token.is, hkind, htext]

/-- A name closes no declaration. -/
theorem isFinal_of_isName {name : Lexeme} (h : isName [name] 0 = true)
    (hsound : name.token.Sound) : name.token.isFinal = false := by
  have hword : name.token.kind = .word := by
    simp only [isName, Bool.and_eq_true, beq_iff_eq, kind?, token?] at h
    simpa using h.1
  simp [Token.isFinal, Token.role_eq_plain_of_kind hsound (by simp [hword]) (by simp [hword])]

theorem isFinal_of_is {token : Token} {wanted : String} (h : token.is wanted = true)
    (hrole : Role.ofText wanted ≠ .ends ∧ Role.ofText wanted ≠ .closes .brace) :
    token.isFinal = false := by
  simp [Token.isFinal, Token.role_of_is h, hrole]

theorem chainLength_of_not_isName {name : Lexeme} (h : isName [name] 0 = false)
    (rest : List Lexeme) : chainLength (name :: rest) = 0 := by
  cases rest <;> simp [chainLength, h]

/-- The number of names does not depend on what follows a bounded stretch. -/
theorem chainLength_append {d e : Nat} {pending : List Closer} {left right : List Lexeme}
    (after after' : List Lexeme) (halike : Alike d e left right) (hbounded : Bounded pending left)
    (hne : left ≠ []) (hsound : SoundInput left) :
    chainLength (left ++ after) = chainLength (right ++ after') := by
  induction left using chainLength.induct generalizing pending right with
  | case1 => exact absurd rfl hne
  | case2 name hname =>
    -- the last token of the stretch is no name
    have hfinal := hbounded.2 name (by simp)
    rw [isFinal_of_isName hname (hsound name (by simp))] at hfinal
    cases hfinal
  | case3 name hname =>
    obtain ⟨other, others, rfl, hother, -⟩ := halike.cons_left
    have hname' : isName [name] 0 = false := by simpa using hname
    simp only [List.cons_append]
    rw [chainLength_of_not_isName hname',
      chainLength_of_not_isName ((isName_singleton_eq hother).symm.trans hname')]
  | case4 name colons rest hname hcolons ih =>
    obtain ⟨other, others, rfl, hother, hothers⟩ := halike.cons_left
    obtain ⟨other', others', rfl, hother', hothers'⟩ := hothers.cons_left
    obtain ⟨next, -, hbounded'⟩ := hbounded.cons
    obtain ⟨next', -, hrest⟩ := hbounded'.cons
    have hrestne : rest ≠ [] := hbounded'.tail_ne_nil (isFinal_of_is hcolons (by decide))
    have := ih hothers' hrest hrestne fun lexeme hmem =>
      hsound lexeme (List.mem_cons_of_mem _ (List.mem_cons_of_mem _ hmem))
    rw [isName_singleton_eq hother] at hname
    rw [is_eq_of_lift hother'] at hcolons
    simp [chainLength, isName_singleton_eq hother, hname, is_eq_of_lift hother', hcolons, this]
  | case5 name colons rest hname hcolons =>
    obtain ⟨other, others, rfl, hother, hothers⟩ := halike.cons_left
    obtain ⟨other', others', rfl, hother', -⟩ := hothers.cons_left
    rw [isName_singleton_eq hother] at hname
    rw [is_eq_of_lift hother'] at hcolons
    simp [chainLength, isName_singleton_eq hother, hname, is_eq_of_lift hother', hcolons]
  | case6 name colons rest hname =>
    obtain ⟨other, others, rfl, hother, -⟩ := halike.cons_left
    have hname' : isName [name] 0 = false := by simpa using hname
    simp only [List.cons_append]
    rw [chainLength_of_not_isName hname',
      chainLength_of_not_isName ((isName_singleton_eq hother).symm.trans hname')]

theorem chainLength_bare (input : List Lexeme) :
    chainLength (Lexeme.bare input) = chainLength input := by
  match input with
  | [] => rfl
  | [name] => rfl
  | name :: colons :: rest => simp [Lexeme.bare, chainLength, isName, kind?, text, token?]

end Lookahead

namespace Steady

variable {known : List Lexeme → Prop}

theorem chainLength : Steady known Lookahead.chainLength where
  bare := Lookahead.chainLength_bare
  stays halike hbounded hne hsound _ :=
    Lookahead.chainLength_append _ _ halike hbounded hne hsound

/-- What is steady is so behind a token that closes no declaration. -/
theorem tail {α : Type} {look : List Lexeme → α} (h : Steady Unknown look)
    (hpass : Passes known 1) : Steady known fun input => look (input.drop 1) where
  bare input := by cases input <;> rfl
  stays := by
    intro d e pending left right after after' halike hbounded hne hsound hknown
    cases left with
    | nil => exact absurd rfl hne
    | cons first rest =>
      obtain ⟨other, others, rfl, -, hothers⟩ := halike.cons_left
      obtain ⟨next, -, hrest⟩ := hbounded.cons
      have hfinal := hpass _ hknown first (by simp) (hsound first (by simp))
      exact h.stays hothers hrest (hbounded.tail_ne_nil hfinal)
        (fun lexeme hmem => hsound lexeme (List.mem_cons_of_mem _ hmem)) trivial

theorem qualifiedLength : Steady known Lookahead.qualifiedLength := by
  have heq : Lookahead.qualifiedLength = fun rest =>
      if Lookahead.isAt rest 0 "::" then Lookahead.chainLength (rest.drop 1)
      else Lookahead.chainLength rest := by
    funext rest
    unfold Lookahead.qualifiedLength
    split <;> rfl
  rw [heq]
  refine (isAt Passes.zero _).ite (chainLength.tail ?_) chainLength
  exact passes_isAt _ (by decide) fun _ => And.right

end Steady

/-! ## Attributes -/

namespace Lookahead

/-- The brackets of attributes that are open above the stack `pending`. -/
structure Bracketed (depth : Nat) (above : List Closer) : Prop where
  count : above.count .bracket = depth
  outermost : ∀ closer ∈ above.getLast?, closer = .bracket

namespace Bracketed

theorem nil : Bracketed 0 [] := ⟨rfl, by simp⟩

theorem ne_nil {depth : Nat} {above : List Closer} (h : Bracketed (depth + 1) above) :
    above ≠ [] := by
  rintro rfl
  simpa using h.count

theorem opens {depth : Nat} {above : List Closer} (h : Bracketed depth above) :
    Bracketed (depth + 1) (.bracket :: above) := by
  refine ⟨by simp [h.count], ?_⟩
  cases above with
  | nil => simp
  | cons closer others => simpa [List.getLast?_cons_cons] using h.outermost

/-- Any other token leaves as many brackets open. -/
theorem step {depth : Nat} {above pending next : List Closer} {token : Token}
    (h : Bracketed (depth + 1) above) (hopen : token.role ≠ .opens .bracket)
    (hclose : token.role ≠ .closes .bracket)
    (hstep : Nesting.step (above ++ pending) token = some next) :
    ∃ above', Bracketed (depth + 1) above' ∧ next = above' ++ pending := by
  cases above with
  | nil => exact absurd rfl h.ne_nil
  | cons closer others =>
    have hcount := h.count
    have hothers : closer ≠ .bracket → Bracketed (depth + 1) others := by
      intro hc
      rw [List.count_cons_of_ne hc] at hcount
      refine ⟨hcount, ?_⟩
      cases others with
      | nil => simp
      | cons second more => simpa [List.getLast?_cons_cons] using h.outermost
    have hpush : ∀ c, c ≠ .bracket → Bracketed (depth + 1) (c :: closer :: others) := by
      intro c hc
      refine ⟨by rw [List.count_cons_of_ne hc, hcount], ?_⟩
      simpa [List.getLast?_cons_cons] using h.outermost
    unfold Nesting.step Nesting.act at hstep
    simp only [List.cons_append, List.head?_cons, List.tail_cons, Option.some.injEq] at hstep
    split at hstep
    · rename_i c hrole
      obtain rfl := Option.some.inj hstep
      exact ⟨c :: closer :: others, hpush c (by rintro rfl; exact hopen hrole), rfl⟩
    · rename_i c hrole
      split at hstep
      · rename_i hc
        obtain rfl := Option.some.inj hstep
        exact ⟨others, hothers (by rintro rfl; exact hclose (hc ▸ hrole)), rfl⟩
      · cases hstep
    · obtain rfl := Option.some.inj hstep
      split
      · rename_i hc
        exact ⟨others, hothers (by simp [hc]), rfl⟩
      · exact ⟨closer :: others, h, rfl⟩
    · cases hstep
    · obtain rfl := Option.some.inj hstep
      exact ⟨closer :: others, h, rfl⟩

theorem close {depth : Nat} {above pending next : List Closer} {token : Token}
    (h : Bracketed (depth + 1) above) (hclose : token.role = .closes .bracket)
    (hstep : Nesting.step (above ++ pending) token = some next) :
    ∃ above', Bracketed depth above' ∧ next = above' ++ pending := by
  cases above with
  | nil => exact absurd rfl h.ne_nil
  | cons closer others =>
    by_cases hc : closer = .bracket
    · subst hc
      simp only [Nesting.step, Nesting.act, hclose, List.cons_append, List.head?_cons, List.tail_cons,
        if_true, Option.some.injEq] at hstep
      refine ⟨others, ⟨by simpa using h.count, ?_⟩, hstep.symm⟩
      cases others with
      | nil => simp
      | cons second more => simpa [List.getLast?_cons_cons] using h.outermost
    · simp [Nesting.step, Nesting.act, hclose, hc] at hstep

end Bracketed

/-- Behind the attributes at its front a bounded stretch goes on. -/
theorem afterAttributes_append {d e depth : Nat} {above pending : List Closer}
    {left right : List Lexeme} (after after' : List Lexeme) (halike : Alike d e left right)
    (hopen : Bracketed depth above) (hbounded : Bounded (above ++ pending) left)
    (hne : depth = 0 → left ≠ []) :
    ∃ rest rest', rest ≠ [] ∧ Alike d e rest rest' ∧
      afterAttributes depth (left ++ after) = rest ++ after ∧
      afterAttributes depth (right ++ after') = rest' ++ after' := by
  induction left generalizing depth above right with
  | nil =>
    cases depth with
    | zero => exact absurd rfl (hne rfl)
    | succ depth => exact absurd rfl (hbounded.ne_nil (by simp [hopen.ne_nil]))
  | cons first others ih =>
    obtain ⟨other, others', rfl, hother, hothers⟩ := halike.cons_left
    obtain ⟨next, hstep, hrest⟩ := hbounded.cons
    simp only [List.cons_append, afterAttributes, ← is_eq_of_lift hother]
    by_cases hbracket : first.token.is "[" = true
    · simp only [hbracket, if_true]
      refine ih hothers hopen.opens ?_ (by simp)
      have hrole : first.token.role = .opens .bracket := Token.role_of_is hbracket
      simp only [Nesting.step, Nesting.act, hrole, Option.some.injEq] at hstep
      rwa [List.cons_append, hstep]
    · simp only [hbracket, if_false, Bool.false_eq_true]
      cases depth with
      | zero => exact ⟨first :: others, other :: others', by simp, halike, rfl, rfl⟩
      | succ depth =>
        by_cases hclose : first.token.is "]" = true
        · simp only [hclose, if_true]
          obtain ⟨above', habove, rfl⟩ := hopen.close (Token.role_of_is hclose) hstep
          exact ih hothers habove hrest fun _ =>
            hbounded.tail_ne_nil (isFinal_of_is hclose (by decide))
        · simp only [hclose, if_false, Bool.false_eq_true]
          obtain ⟨above', habove, rfl⟩ := hopen.step
            (fun hrole => hbracket (Token.is_of_role_opens hrole))
            (fun hrole => hclose (Token.is_of_role_closes hrole)) hstep
          exact ih hothers habove hrest (by simp)

theorem afterAttributes_bare (input : List Lexeme) :
    text (afterAttributes 0 (Lexeme.bare input)) 0 = text (afterAttributes 0 input) 0 := by
  cases input with
  | nil => rfl
  | cons first others =>
    simp only [Lexeme.bare, afterAttributes]
    split <;> rfl

end Lookahead

namespace Steady

variable {known : List Lexeme → Prop}

theorem keyword : Steady known Lookahead.keyword where
  bare := Lookahead.afterAttributes_bare
  stays := by
    intro d e pending left right after after' halike hbounded hne _ _
    obtain ⟨rest, rest', hrest, hrestAlike, heq, heq'⟩ := Lookahead.afterAttributes_append
      after after' halike Lookahead.Bracketed.nil (hbounded : Bounded ([] ++ pending) left)
      fun _ => hne
    unfold Lookahead.keyword
    rw [heq, heq']
    obtain ⟨a, b, ha, hb, hab⟩ :=
      hrestAlike.getElem? (List.length_pos_iff.mpr hrest) after after'
    obtain ⟨-, htext, -⟩ := Token.lift_eq_iff.mp (Lexeme.token_lift_eq hab)
    simp [Lookahead.text, Lookahead.token?, ha, hb, htext]

/-! ## Operators -/

theorem infixAhead : Steady known Infix.ahead? := by
  unfold Infix.ahead?
  refine ((kind? Passes.zero).comp (· == some .punct)).ite ?_ (const none)
  refine (text Passes.zero).bind (fun word rest =>
    if word = ">" then
      let twice := Lookahead.adjacent rest 0 && Lookahead.isAt rest 1 ">"
      let more := if twice then 1 else 0
      let assigned := Lookahead.adjacent rest more && Lookahead.isAt rest (more + 1) "="
      let text := (if twice then ">>" else ">") ++ (if assigned then "=" else "")
      (Infix.ofText? text).map (·, if assigned then more + 1 else more)
    else (Infix.ofText? word).map (·, 0)) fun word => ?_
  by_cases hword : word = ">"
  · subst hword
    have hone : Passes (fun input => (known input ∧
        (Lookahead.kind? input 0 == some .punct) = true) ∧ Lookahead.text input 0 = ">") 1 :=
      Passes.zero.succ
        (fun _ h => Lookahead.HasRole.of_punct (by simpa using h.1.2) (by rw [h.2]; decide))
        (by decide : Role.plain ≠ _ ∧ _)
    simp only [if_true]
    refine ((adjacent hone).and (isAt (fun _ h => hone _ h.1) ">")).bind (fun twice rest =>
      let more := if twice then 1 else 0
      let assigned := Lookahead.adjacent rest more && Lookahead.isAt rest (more + 1) "="
      let text := (if twice then ">>" else ">") ++ (if assigned then "=" else "")
      (Infix.ofText? text).map (·, if assigned then more + 1 else more)) fun twice => ?_
    cases twice with
    | false =>
      exact ((adjacent fun _ h => hone _ h.1).and (isAt (fun _ h => hone _ h.1.1) "=")).comp
        fun assigned => (Infix.ofText? (">" ++ if assigned then "=" else "")).map
          (·, if assigned then 1 else 0)
    | true =>
      have htwo : Passes (fun input => ((known input ∧
          (Lookahead.kind? input 0 == some .punct) = true) ∧ Lookahead.text input 0 = ">") ∧
          (Lookahead.adjacent input 0 && Lookahead.isAt input 1 ">") = true) 2 :=
        Passes.succ (fun _ h => hone _ h.1)
          (fun _ h => .of_isAt (Bool.and_eq_true_iff.mp h.2).2) (by decide)
      exact ((adjacent htwo).and (isAt (fun _ h => htwo _ h.1) "=")).comp
        fun assigned => (Infix.ofText? (">>" ++ if assigned then "=" else "")).map
          (·, if assigned then 2 else 1)
  · simp only [hword, if_false]
    exact const _

theorem infixBinds (minPower : Nat) : Steady known (Infix.binds minPower) :=
  infixAhead.comp fun ahead => ahead.any (minPower ≤ ·.1.power)

end Steady

end Azsl
