/-
Azsl.Proofs.Grammar.Combination — rules for the usual ways to combine productions.

Each rule says that a combinator of the grammar makes a combination in the sense of `Twin` out
of combinations. With them the productions of the language are gone through one by one, each
proof following the text of its production.
-/
import Azsl.Proofs.Grammar.Lookahead
import Azsl.Proofs.Grammar.State

namespace Azsl

/-! ## What one token does to the stack -/

/-- A part turns one stack into another, whatever lies below. -/
def Acts (mode : Mode) (role : Role) (pending next : List Closer) : Prop :=
  ∀ below, mode.Allows below → Nesting.act (pending ++ below) role = some (next ++ below)

namespace Acts

variable {mode : Mode} {pending : List Closer}

theorem plain : Acts mode .plain pending pending :=
  fun _ _ => rfl

theorem opens (closer : Closer) : Acts mode (.opens closer) pending (closer :: pending) :=
  fun _ _ => rfl

theorem closes (closer : Closer) : Acts mode (.closes closer) (closer :: pending) pending := by
  intro below _
  simp [Nesting.act]

theorem loose {role : Role} : Acts .loose role pending pending :=
  fun _ h => h.elim

/-- Inside a bracket a semicolon closes nothing. -/
theorem ends_inside {closer : Closer} (h : closer ≠ .semicolon) :
    Acts mode .ends (closer :: pending) (closer :: pending) := by
  intro below _
  simp [Nesting.act, h]

/-- Neither does it between the statements of a block. -/
theorem ends_statement : Acts .statement .ends [] [] := by
  intro below h
  have hhead : below.head? = some .brace := h
  simp [Nesting.act, hhead]

end Acts

theorem Lookahead.HasRole.role_eq {input : List Lexeme} {n : Nat} {role : Role}
    (h : HasRole input n role) (hlt : n < input.length) (hsound : input[n].token.Sound) :
    input[n].token.role = role := by
  obtain ⟨token, htoken, hrole, -⟩ := h
  simp only [token?, List.getElem?_eq_getElem hlt, Option.map_some, Option.some.injEq] at htoken
  subst htoken
  exact hrole hsound

theorem Lookahead.HasRole.native {input : List Lexeme} {n : Nat} {role : Role}
    (h : HasRole input n role) (hlt : n < input.length) (hlegible : input[n].token.Legible) :
    input[n].token.isForeign = false := by
  obtain ⟨token, htoken, -, -, hnative⟩ := h
  simp only [token?, List.getElem?_eq_getElem hlt, Option.map_some, Option.some.injEq] at htoken
  subst htoken
  exact hnative hlegible

namespace Takes

variable {mode : Mode} {known : List Lexeme → Prop} {pending between next : List Closer}

/-- Tokens that play a part are not foreign. -/
theorem native_of_role {input : List Lexeme} {count : Nat}
    (h : ∀ k ≤ count, ∃ role, Lookahead.HasRole input k role) :
    ∀ lexeme ∈ input.take (count + 1), lexeme.token.Legible → lexeme.token.isForeign = false := by
  intro lexeme hmem hlegible
  obtain ⟨k, hk, rfl⟩ := List.mem_take_iff_getElem.mp hmem
  obtain ⟨role, hrole⟩ := h k (by omega)
  exact hrole.native (by omega) hlegible

theorem one {role : Role} (hrole : ∀ input, known input → Lookahead.HasRole input 0 role)
    (hacts : Acts mode role pending next) : Takes mode known 0 pending next where
  enough hknown := (hrole _ hknown).lt_length
  joined := by
    intro input _ _ lexeme hmem
    cases input <;> simp at hmem
  goesOn := .zero
  nesting := by
    intro input hknown hsound below hbelow
    obtain ⟨token, htoken, hrole, -⟩ := hrole input hknown
    cases input with
    | nil => simp [Lookahead.token?] at htoken
    | cons first others =>
      simp only [Lookahead.token?, List.getElem?_cons_zero, Option.map_some,
        Option.some.injEq] at htoken
      subst htoken
      have hact := hacts below hbelow
      rw [← hrole (hsound first (by simp))] at hact
      simp [Lexeme.tokens, Nesting.run_cons, Nesting.step, hact]
  native := by
    intro _ input hknown
    refine native_of_role fun k hk => ⟨role, ?_⟩
    obtain rfl : k = 0 := by omega
    exact hrole input hknown

theorem two {role role' : Role} (hrole : ∀ input, known input → Lookahead.HasRole input 0 role)
    (hrole' : ∀ input, known input → Lookahead.HasRole input 1 role')
    (hfinal : role ≠ .ends ∧ role ≠ .closes .brace)
    (hjoined : ∀ input, known input → Spaced input →
      ∀ second ∈ input[1]?, second.leading = [])
    (hacts : Acts mode role pending between) (hacts' : Acts mode role' between next) :
    Takes mode known 1 pending next where
  enough hknown := (hrole' _ hknown).lt_length
  joined := by
    intro input hknown hspaced lexeme hmem
    match input with
    | [] => simp at hmem
    | [first] => simp at hmem
    | first :: second :: others =>
      obtain rfl : lexeme = second := by simpa using hmem
      exact hjoined _ hknown hspaced lexeme rfl
  goesOn := Passes.zero.succ hrole hfinal
  nesting := by
    intro input hknown hsound below hbelow
    obtain ⟨token, htoken, hrole, -⟩ := hrole input hknown
    obtain ⟨token', htoken', hrole', -⟩ := hrole' input hknown
    match input with
    | [] => simp [Lookahead.token?] at htoken
    | [first] => simp [Lookahead.token?] at htoken'
    | first :: second :: others =>
      simp only [Lookahead.token?, List.getElem?_cons_zero, List.getElem?_cons_succ,
        Option.map_some, Option.some.injEq] at htoken htoken'
      subst htoken htoken'
      have hact := hacts below hbelow
      have hact' := hacts' below hbelow
      rw [← hrole (hsound first (by simp))] at hact
      rw [← hrole' (hsound second (by simp))] at hact'
      simp [Lexeme.tokens, Nesting.run_cons, Nesting.step, hact, hact']
  native := by
    intro _ input hknown
    refine native_of_role fun k hk => ?_
    obtain rfl | rfl : k = 0 ∨ k = 1 := by omega
    · exact ⟨role, hrole input hknown⟩
    · exact ⟨role', hrole' input hknown⟩

/-- Where nothing is said about brackets any token may be taken. -/
theorem loose (h : ∀ input, known input → input ≠ []) : Takes .loose known 0 pending pending where
  enough hknown := List.length_pos_iff.mpr (h _ hknown)
  joined := by
    intro input _ _ lexeme hmem
    cases input <;> simp at hmem
  goesOn := .zero
  nesting _ _ _ hbelow := hbelow.elim
  native h := absurd rfl h

/-- Any number of tokens that play no part. -/
theorem plain {count : Nat}
    (hrole : ∀ input, known input → ∀ k ≤ count, Lookahead.HasRole input k .plain)
    (hjoined : ∀ input, known input → Spaced input →
      ∀ k < count, ∀ second ∈ input[k + 1]?, second.leading = []) :
    Takes mode known count pending pending where
  enough hknown := (hrole _ hknown count (Nat.le_refl _)).lt_length
  joined := by
    intro input hknown hspaced lexeme hmem
    cases input with
    | nil => simp at hmem
    | cons first others =>
      rw [List.take_succ_cons, List.tail_cons] at hmem
      obtain ⟨k, hk, rfl⟩ := List.mem_take_iff_getElem.mp hmem
      have hlt : k < count ∧ k < others.length := by omega
      exact hjoined _ hknown hspaced k hlt.1 _ (by simp)
  goesOn := by
    intro input hknown lexeme hmem hsound
    obtain ⟨k, hk, rfl⟩ := List.mem_take_iff_getElem.mp hmem
    have hlt : k < count ∧ k < input.length := by omega
    simp [Token.isFinal, (hrole input hknown k (by omega)).role_eq hlt.2 hsound]
  nesting := by
    intro input hknown hsound below _
    refine Nesting.run_plain fun token hmem => ?_
    obtain ⟨lexeme, hlexeme, rfl⟩ := List.mem_map.mp hmem
    obtain ⟨k, hk, rfl⟩ := List.mem_take_iff_getElem.mp hlexeme
    have hlt : k < count + 1 ∧ k < input.length := by omega
    exact (hrole input hknown k (by omega)).role_eq hlt.2 (hsound _ hlexeme)
  native _ _ hknown := native_of_role fun k hk => ⟨.plain, hrole _ hknown k hk⟩

end Takes

namespace Suits

variable {known : List Lexeme → Prop}

/-- An unnamed leaf of a token with a text. -/
theorem token {role : Role} (hrole : ∀ input, known input → Lookahead.HasRole input 0 role) :
    Suits .token known where
  leaf := rfl
  solid := by
    intro _ input hknown first hfirst
    obtain ⟨token, htoken, -, hsolid, -⟩ := hrole input hknown
    cases input with
    | nil => cases hfirst
    | cons head others =>
      obtain rfl := Option.some.inj hfirst
      obtain rfl := Option.some.inj htoken
      exact hsolid
  word := nofun

/-- An unnamed leaf of a token that is known to have a text. -/
theorem ofText (h : ∀ input, known input → Lookahead.text input 0 ≠ "") : Suits .token known where
  leaf := rfl
  solid := by
    intro _ input hknown first hfirst _
    cases input with
    | nil => cases hfirst
    | cons head others =>
      obtain rfl := Option.some.inj hfirst
      exact h _ hknown
  word := nofun

/-- An unnamed leaf of a token of a kind that always has a text. -/
theorem ofKind {wanted : TokenKind} (hwanted : wanted ≠ .includePath)
    (h : ∀ input, known input → Lookahead.kind? input 0 = some wanted) : Suits .token known where
  leaf := rfl
  solid := by
    intro _ input hknown first hfirst hpath
    have hfound := h input hknown
    cases input with
    | nil => cases hfirst
    | cons head others =>
      obtain rfl := Option.some.inj hfirst
      exact absurd ((Option.some.inj hfound).symm.trans hpath) hwanted
  word := nofun

/-- A leaf of a word. -/
theorem ofWord {kind : NodeKind} (hkind : kind.isLeaf = true)
    (h : ∀ input, known input → Lookahead.kind? input 0 = some .word) : Suits kind known := by
  have hword : ∀ input, known input → ∀ first ∈ input.head?, first.token.kind = .word := by
    intro input hknown first hfirst
    have hfound := h input hknown
    cases input with
    | nil => cases hfirst
    | cons head others =>
      obtain rfl := Option.some.inj hfirst
      exact Option.some.inj hfound
  refine ⟨hkind, fun _ input hknown first hfirst hpath => ?_, fun _ => hword⟩
  rw [hword input hknown first hfirst] at hpath
  cases hpath

/-- A leaf of any other kind. -/
theorem free {kind : NodeKind} (h : kind.isFree = true) : Suits kind known := by
  simp only [NodeKind.isFree, Bool.and_eq_true, bne_iff_ne] at h
  exact ⟨h.1.1, fun htoken => absurd htoken h.1.2, fun hname => absurd hname h.2⟩

end Suits

/-! ## Tokens that touch -/

namespace Lookahead

theorem leading_of_contiguous {input : List Lexeme} {n : Nat} (h : contiguous input n = true) :
    ∀ second ∈ input[n + 1]?, second.leading = [] := by
  intro second hsecond
  rw [Option.mem_def] at hsecond
  simpa [contiguous, hsecond] using h

theorem leading_of_adjacent {input : List Lexeme} {n : Nat} (h : adjacent input n = true)
    (hspaced : Spaced input) : ∀ second ∈ input[n + 1]?, second.leading = [] := by
  intro second hsecond
  rw [Option.mem_def] at hsecond
  obtain ⟨hlt, hget⟩ := List.getElem?_eq_some_iff.mp hsecond
  have hchain := List.isChain_iff_getElem.mp hspaced n hlt
  by_contra hne
  rw [hget] at hchain
  have hbytes := hchain hne
  have hn : input[n]? = some input[n] := List.getElem?_eq_getElem (by omega)
  simp only [adjacent, token?, hn, hsecond, Option.map_some, beq_iff_eq] at h
  omega

end Lookahead

/-! ## Rules -/

namespace Mode

/-- Whether a production that relies on one mode may stand behind open brackets in another. -/
def standsIn (mode other : Mode) : List Closer → Bool
  | [] => mode.le other
  | closer :: _ =>
    match mode with
    | direct | inner => true
    | statement => closer == .brace
    | loose => false

theorem standsIn_direct (other : Mode) (pending : List Closer) :
    direct.standsIn other pending = true := by
  cases pending with
  | nil => cases other <;> rfl
  | cons closer others => rfl

theorem allows_of_standsIn {mode other : Mode} {closer : Closer} {pending : List Closer}
    (h : mode.standsIn other (closer :: pending) = true) (below : List Closer) :
    mode.Allows (closer :: below) := by
  cases mode <;> simp_all [standsIn, Allows]

end Mode

namespace Twin

variable {grammar grammar' : Grammar} {depth : Nat} {mode : Mode}
  {known known' : List Lexeme → Prop} {takes takes' : Bool} {pending between next : List Closer}
  {first first' second second' body body' : Production}

theorem ofKnown (h : Twin grammar grammar' depth mode known takes pending next body body')
    (hk : ∀ input, known' input → known input) :
    Twin grammar grammar' depth mode known' takes pending next body body' :=
  h.weaken (by cases mode <;> rfl) hk id

/-- What holds whatever the input is holds of any input. -/
theorem always (h : Twin grammar grammar' depth mode Unknown takes pending next body body') :
    Twin grammar grammar' depth mode known takes pending next body body' :=
  h.ofKnown fun _ _ => trivial

theorem maybe (h : Twin grammar grammar' depth mode known takes pending next body body') :
    Twin grammar grammar' depth mode known false pending next body body' :=
  h.weaken (by cases mode <;> rfl) (fun _ => id) (by simp)

/-- A production may stand behind open brackets, and in a mode that promises more. -/
theorem lift {other : Mode} (h : Twin grammar grammar' depth other known takes [] [] body body')
    (hs : other.standsIn mode pending = true) :
    Twin grammar grammar' depth mode known takes pending pending body body' := by
  cases pending with
  | nil => exact h.weaken hs (fun _ => id) id
  | cons closer others => exact h.enter (Mode.allows_of_standsIn hs)

theorem rule (rule : Rule) (hs : rule.mode.standsIn mode pending = true) :
    Twin grammar grammar' depth mode known true pending pending
      (grammar rule depth) (grammar' rule depth) :=
  (call rule).lift hs

/-- A nonterminal that relies on nothing. -/
theorem ruleDirect (rule : Rule) (h : rule.mode = .direct) :
    Twin grammar grammar' depth mode known true pending pending
      (grammar rule depth) (grammar' rule depth) :=
  (call rule).lift (h ▸ Mode.standsIn_direct mode pending)

/-! ### Sequences -/

/-- A sequence whose first part takes a token. -/
theorem followed (h : Twin grammar grammar' depth mode known true pending between first first')
    (h' : Twin grammar grammar' depth mode Unknown takes between next second second') :
    Twin grammar grammar' depth mode known true pending next
      (first >=> second) (first' >=> second') :=
  h.seq h' fun _ => .inl rfl

/-- A sequence whose second part takes a token. -/
theorem before (h : Twin grammar grammar' depth mode known takes pending between first first')
    (h' : Twin grammar grammar' depth mode Unknown true between next second second') :
    Twin grammar grammar' depth mode known true pending next
      (first >=> second) (first' >=> second') :=
  h.seq h' fun _ => .inr rfl

/-- A sequence that may take nothing. -/
theorem beside (h : Twin grammar grammar' depth mode known takes pending between first first')
    (h' : Twin grammar grammar' depth mode Unknown takes' between next second second') :
    Twin grammar grammar' depth mode known false pending next
      (first >=> second) (first' >=> second') :=
  h.seq h' (by simp)

/-! ### Choice -/

/-- A choice by something that is looked at. -/
theorem chooseBy {α : Type} {look : List Lexeme → α} {select select' : α → Production}
    (hlook : Steady known look)
    (h : ∀ found, Twin grammar grammar' depth mode
      (fun input => known input ∧ look input = found) takes pending next
      (select found) (select' found)) :
    Twin grammar grammar' depth mode known takes pending next
      (Production.choose fun rest => select (look rest))
      (Production.choose fun rest => select' (look rest)) :=
  choose (hlook.comp select) (hlook.comp select') fun input hknown =>
    (h (look input)).ofKnown fun _ heq => by subst heq; exact ⟨hknown, rfl⟩

theorem ifAhead {look : List Lexeme → Bool} {yes yes' no no' : Production}
    (hlook : Steady known look)
    (hyes : Twin grammar grammar' depth mode (fun input => known input ∧ look input = true) takes
      pending next yes yes')
    (hno : Twin grammar grammar' depth mode (fun input => known input ∧ look input = false) takes
      pending next no no') :
    Twin grammar grammar' depth mode known takes pending next
      (Production.ifAhead look yes no) (Production.ifAhead look yes' no') := by
  have heq : ∀ yes no, Production.ifAhead look yes no
      = Production.choose fun rest => if look rest then yes else no := by
    intro yes no
    funext state
    simp only [Production.ifAhead, Production.choose]
    split <;> rfl
  rw [heq, heq]
  refine choose (hlook.ite (Steady.const _) (Steady.const _))
    (hlook.ite (Steady.const _) (Steady.const _)) fun input hknown => ?_
  split
  · rename_i hl
    exact hyes.ofKnown fun _ h => h ▸ ⟨hknown, hl⟩
  · rename_i hl
    exact hno.ofKnown fun _ h => h ▸ ⟨hknown, by simpa using hl⟩

theorem whenAhead {look : List Lexeme → Bool} (hlook : Steady known look)
    (h : Twin grammar grammar' depth mode (fun input => known input ∧ look input = true) takes
      pending pending body body') :
    Twin grammar grammar' depth mode known false pending pending
      (Production.whenAhead look body) (Production.whenAhead look body') :=
  ifAhead hlook h.maybe skip

theorem guard {look : List Lexeme → Bool} (hlook : Steady known look) :
    Twin grammar grammar' depth mode known false pending pending
      (Production.guard look) (Production.guard look) :=
  ifAhead hlook skip fail

/-- What a guard lets pass is known behind it. -/
theorem guarded {look : List Lexeme → Bool} (hlook : Steady known look)
    (h : Twin grammar grammar' depth mode (fun input => known input ∧ look input = true) takes
      pending next body body') :
    Twin grammar grammar' depth mode known takes pending next
      (Production.guard look >=> body) (Production.guard look >=> body') := by
  have heq : ∀ body, (Production.guard look >=> body)
      = Production.ifAhead look body Production.fail := by
    intro body
    funext state
    simp only [Production.seq_apply, Production.guard, Production.ifAhead]
    split <;> rfl
  rw [heq, heq]
  exact ifAhead hlook h fail

variable {text : String}

theorem ifAt {yes yes' no no' : Production}
    (hyes : Twin grammar grammar' depth mode
      (fun input => known input ∧ Lookahead.isAt input 0 text = true) takes pending next yes yes')
    (hno : Twin grammar grammar' depth mode
      (fun input => known input ∧ Lookahead.isAt input 0 text = false) takes pending next no no') :
    Twin grammar grammar' depth mode known takes pending next
      (Production.ifAt text yes no) (Production.ifAt text yes' no') :=
  ifAhead (Steady.isAt Passes.zero text) hyes hno

theorem whenAt (h : Twin grammar grammar' depth mode
      (fun input => known input ∧ Lookahead.isAt input 0 text = true) takes
      pending pending body body') :
    Twin grammar grammar' depth mode known false pending pending
      (Production.whenAt text body) (Production.whenAt text body') :=
  ifAt h.maybe skip

theorem unlessAt (h : Twin grammar grammar' depth mode
      (fun input => known input ∧ Lookahead.isAt input 0 text = false) takes
      pending pending body body') :
    Twin grammar grammar' depth mode known false pending pending
      (Production.unlessAt text body) (Production.unlessAt text body') :=
  ifAt skip h.maybe

/-! ### Tokens -/

theorem bumpAs {kind : NodeKind} {role : Role} (hkind : Suits kind known)
    (hrole : ∀ input, known input → Lookahead.HasRole input 0 role)
    (hacts : Acts mode role pending next) :
    Twin grammar grammar' depth mode known true pending next
      (Production.bumpAs kind) (Production.bumpAs kind) :=
  take hkind (.one hrole hacts)

theorem bump {role : Role} (hrole : ∀ input, known input → Lookahead.HasRole input 0 role)
    (hacts : Acts mode role pending next) :
    Twin grammar grammar' depth mode known true pending next Production.bump Production.bump :=
  bumpAs (.token hrole) hrole hacts

/-- A token that plays no part. -/
theorem bumpPlain (hrole : ∀ input, known input → Lookahead.HasRole input 0 .plain) :
    Twin grammar grammar' depth mode known true pending pending
      Production.bump Production.bump :=
  bump hrole .plain

/-- The token that was looked for. -/
theorem bumpAt (hacts : Acts mode (.ofText text) pending next) :
    Twin grammar grammar' depth mode
      (fun input => known input ∧ Lookahead.isAt input 0 text = true) true pending next
      Production.bump Production.bump :=
  bump (fun _ h => .of_isAt h.2) hacts

theorem expect (text : String) (hacts : Acts mode (.ofText text) pending next) :
    Twin grammar grammar' depth mode known true pending next
      (Production.expect text) (Production.expect text) :=
  ifAhead (Steady.isAt Passes.zero text) (bumpAt hacts) fail

/-- A keyword, or punctuation that plays no part. -/
theorem word (text : String) (h : Role.ofText text = .plain) :
    Twin grammar grammar' depth mode known true pending pending
      (Production.expect text) (Production.expect text) :=
  expect text (h ▸ .plain)

theorem openParen : Twin grammar grammar' depth mode known true pending (.paren :: pending)
    (Production.expect "(") (Production.expect "(") :=
  expect "(" (.opens .paren)

theorem closeParen : Twin grammar grammar' depth mode known true (.paren :: pending) pending
    (Production.expect ")") (Production.expect ")") :=
  expect ")" (.closes .paren)

theorem openBracket : Twin grammar grammar' depth mode known true pending (.bracket :: pending)
    (Production.expect "[") (Production.expect "[") :=
  expect "[" (.opens .bracket)

theorem closeBracket : Twin grammar grammar' depth mode known true (.bracket :: pending) pending
    (Production.expect "]") (Production.expect "]") :=
  expect "]" (.closes .bracket)

theorem openBrace : Twin grammar grammar' depth mode known true pending (.brace :: pending)
    (Production.expect "\x7b") (Production.expect "\x7b") :=
  expect "\x7b" (.opens .brace)

theorem closeBrace : Twin grammar grammar' depth mode known true (.brace :: pending) pending
    (Production.expect "\x7d") (Production.expect "\x7d") :=
  expect "\x7d" (.closes .brace)

theorem tokenNode {kind : NodeKind} (hkind : kind.isComposite = true)
    (hrole : ∀ input, known input → Lookahead.HasRole input 0 .plain) :
    Twin grammar grammar' depth mode known true pending pending
      (Production.tokenNode kind) (Production.tokenNode kind) :=
  node hkind (bumpPlain hrole)

theorem optional (h : Role.ofText text = .plain) :
    Twin grammar grammar' depth mode known false pending pending
      (Production.optional text) (Production.optional text) :=
  whenAt (bumpAt (h ▸ .plain))

/-! ### Repetition -/

theorem whileAt (h : Twin grammar grammar' depth mode
      (fun input => Lookahead.isAt input 0 text = true) true pending pending body body') :
    Twin grammar grammar' depth mode known false pending pending
      (Production.whileAt text body) (Production.whileAt text body') :=
  whileAhead (Steady.isAt Passes.zero text) h (by simp)

/-- Repetition that may take nothing. -/
theorem repeated {look : List Lexeme → Bool} (hlook : Steady Unknown look)
    (h : Twin grammar grammar' depth mode (look · = true) true pending pending body body') :
    Twin grammar grammar' depth mode known false pending pending
      (Production.whileAhead look body) (Production.whileAhead look body') :=
  whileAhead hlook h (by simp)

theorem commaSeparated
    (h : Twin grammar grammar' depth mode Unknown true pending pending body body') :
    Twin grammar grammar' depth mode known true pending pending
      (Production.commaSeparated body) (Production.commaSeparated body') :=
  h.always.followed <| whileAt <|
    (bump (fun _ h => .of_isAt h) .plain).followed h

end Twin

end Azsl
