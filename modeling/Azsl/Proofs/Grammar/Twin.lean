/-
Azsl.Proofs.Grammar.Twin — how the productions of the grammar are put together.

Productions are functions, so nothing can be proved about all of them by looking at one.
`Twin` says that two productions are the same combination of the same parts, one over each of
two grammars, and what is known about the combination without running it: what brackets it
leaves open, whether it takes a token, and where it may stand. What holds of every combination
is then proved once, by induction on `Twin`, with one case for each way to combine.
-/
import Azsl.Grammar.Statement
import Azsl.Proofs.Grammar.Alike
import Mathlib.Data.List.Chain

namespace Azsl

/-! ## Where a production may stand -/

/-- What a production relies on below the brackets it opens itself. -/
inductive Mode where
  /-- Nothing. -/
  | direct
  /-- Some bracket is open, or a semicolon is to come: alternatives that fail stay before it. -/
  | inner
  /-- It stands inside braces: semicolons may be taken, and errors passed over. -/
  | statement
  /-- It stands nowhere: nothing is said about brackets. -/
  | loose
deriving DecidableEq, Repr

namespace Mode

/-- Whether a stack is what a production relies on. -/
def Allows : Mode → List Closer → Prop
  | direct, _ => True
  | inner, below => below ≠ []
  | statement, below => below.head? = some .brace
  | loose, _ => False

/-- Whatever relies on more may stand wherever less is asked for. -/
def le : Mode → Mode → Bool
  | direct, _ => true
  | inner, inner => true
  | inner, statement => true
  | statement, statement => true
  | _, loose => true
  | _, _ => false

theorem Allows.of_le {mode other : Mode} {below : List Closer} (h : other.Allows below)
    (hle : mode.le other = true) : mode.Allows below := by
  cases mode <;> cases other <;> simp_all [Allows, le]
  rintro rfl
  simp at h

theorem Allows.ne_nil {mode : Mode} {below : List Closer} (h : mode.Allows below)
    (hmode : mode ≠ .direct) : below ≠ [] := by
  rintro rfl
  cases mode <;> simp [Allows] at h hmode

/-- Statements stand right inside braces. -/
theorem Allows.eq_cons {below : List Closer} (h : statement.Allows below) :
    ∃ outer, below = .brace :: outer :=
  List.head?_eq_some_iff.mp h

end Mode

/-! ## Looking ahead -/

/-- What is ahead is decided before the end of any bounded stretch of input. -/
structure Steady {α : Type} (known : List Lexeme → Prop) (look : List Lexeme → α) : Prop where
  bare : ∀ input, look (Lexeme.bare input) = look input
  stays : ∀ {d e : Nat} {pending : List Closer} {left right after after' : List Lexeme},
    Alike d e left right → Bounded pending left → left ≠ [] → SoundInput left →
    known (left ++ after) → look (left ++ after) = look (right ++ after')

/-- Nothing is known about the input. -/
def Unknown (_ : List Lexeme) : Prop := True

/-- None of the next `count` tokens closes a declaration. -/
def Passes (known : List Lexeme → Prop) (count : Nat) : Prop :=
  ∀ input, known input → ∀ lexeme ∈ input.take count,
    lexeme.token.Sound → lexeme.token.isFinal = false

/-- Trivia has a width: tokens that touch have none between them. -/
def Spaced (input : List Lexeme) : Prop :=
  input.IsChain fun first second =>
    second.leading ≠ [] → first.token.stop.byte < second.token.start.byte

/-- What taking `count + 1` tokens as one leaf relies on, and what it does to the stack. -/
structure Takes (mode : Mode) (known : List Lexeme → Prop) (count : Nat)
    (pending next : List Closer) : Prop where
  enough : ∀ {input}, known input → count < input.length
  joined : ∀ {input}, known input → Spaced input →
    ∀ lexeme ∈ (input.take (count + 1)).tail, lexeme.leading = []
  goesOn : Passes known count
  nesting : ∀ {input}, known input → SoundInput (input.take (count + 1)) →
    ∀ below, mode.Allows below →
      Nesting.run (pending ++ below) (Lexeme.tokens (input.take (count + 1)))
        = some (next ++ below)
  native : mode ≠ .loose → ∀ {input}, known input → ∀ lexeme ∈ input.take (count + 1),
    lexeme.token.Legible → lexeme.token.isForeign = false

/-! ## Combinations -/

namespace NodeKind

/-- The kinds of nodes that a production puts around others. Identifiers and unnamed tokens are
always leaves. -/
def isComposite (kind : NodeKind) : Bool :=
  kind != .error && kind != .stringLiteral && kind != .identifier && kind != .token &&
    !kind.isExtra

/-- The kinds of leaves that a production makes of tokens. -/
def isLeaf (kind : NodeKind) : Bool :=
  kind != .error && kind != .stringLiteral && !kind.isExtra

/-- The kinds of leaves that a production makes of whatever tokens it likes. -/
def isFree (kind : NodeKind) : Bool :=
  kind.isLeaf && kind != .token && kind != .identifier

end NodeKind

/-- What the first token of a leaf has to be. -/
structure Suits (kind : NodeKind) (known : List Lexeme → Prop) : Prop where
  leaf : kind.isLeaf = true
  solid : kind = .token → ∀ input, known input → ∀ first ∈ input.head?, first.token.Solid
  word : kind = .identifier →
    ∀ input, known input → ∀ first ∈ input.head?, first.token.kind = .word

namespace Rule

/-- Where a nonterminal may stand. -/
def mode : Rule → Mode
  | type | structured | block => .direct
  | expression _ | unary | initializer => .inner
  | embedded => .statement

end Rule

open Production in
/-- Two productions are the same combination, one over each of two grammars, at a nesting
depth. The indices say where the combination may stand, what is known about the input before
it, whether it takes a token, and the stack before and behind it. -/
inductive Twin (grammar grammar' : Grammar) (depth : Nat) :
    Mode → (List Lexeme → Prop) → Bool → List Closer → List Closer →
      Production → Production → Prop
  | skip {mode known pending} : Twin grammar grammar' depth mode known false pending pending .ok .ok
  | fail {mode known takes pending next} :
      Twin grammar grammar' depth mode known takes pending next fail fail
  | take {mode known pending next count kind} :
      Suits kind known → Takes mode known count pending next →
      Twin grammar grammar' depth mode known true pending next
        (bumpJoined count kind) (bumpJoined count kind)
  | string {mode known pending} :
      Twin grammar grammar' depth mode known true pending pending stringLiteral stringLiteral
  | choose {mode known takes pending next select select'} :
      Steady known select → Steady known select' →
      (∀ input, known input →
        Twin grammar grammar' depth mode (· = input) takes pending next
          (select input) (select' input)) →
      Twin grammar grammar' depth mode known takes pending next
        (choose select) (choose select')
  | orElse {mode known takes pending next first first' second second'} :
      mode ≠ .direct →
      Twin grammar grammar' depth mode known takes pending next first first' →
      Twin grammar grammar' depth mode known takes pending next second second' →
      Twin grammar grammar' depth mode known takes pending next
        (orElse first second) (orElse first' second')
  | seq {mode known takes takes₁ takes₂ pending between next first first' second second'} :
      Twin grammar grammar' depth mode known takes₁ pending between first first' →
      Twin grammar grammar' depth mode Unknown takes₂ between next second second' →
      (takes = true → takes₁ = true ∨ takes₂ = true) →
      Twin grammar grammar' depth mode known takes pending next
        (first >=> second) (first' >=> second')
  | node {mode known pending next kind body body'} :
      kind.isComposite = true →
      Twin grammar grammar' depth mode known true pending next body body' →
      Twin grammar grammar' depth mode known true pending next
        (node kind body) (node kind body')
  | inScope {mode known takes pending next body body'} :
      Twin grammar grammar' depth mode known takes pending next body body' →
      Twin grammar grammar' depth mode known takes pending next (inScope body) (inScope body')
  | enclose {mode known pending next kind body body'} :
      kind.isComposite = true →
      Twin grammar grammar' depth mode known true pending next body body' →
      Twin grammar grammar' depth mode known true pending next
        (enclose kind body) (enclose kind body')
  | whileAhead {mode known takes pending look body body'} :
      Steady Unknown look →
      Twin grammar grammar' depth mode (look · = true) true pending pending body body' →
      (takes = true → ∀ input, known input → look input = true) →
      Twin grammar grammar' depth mode known takes pending pending
        (whileAhead look body) (whileAhead look body')
  | braced {mode known pending item item'} :
      Twin grammar grammar' depth .statement
        (fun input => input ≠ [] ∧ Lookahead.isAt input 0 "\x7d" = false) true [] [] item item' →
      Twin grammar grammar' depth mode known true pending pending (braced item) (braced item')
  | recover {known} :
      (∀ input, known input → input ≠ [] ∧ Lookahead.isAt input 0 "\x7d" = false) →
      Twin grammar grammar' depth .statement known true [] [] recover recover
  | orRecover {known takes item item'} :
      (∀ input, known input → input ≠ [] ∧ Lookahead.isAt input 0 "\x7d" = false) →
      Twin grammar grammar' depth .statement known takes [] [] item item' →
      Twin grammar grammar' depth .statement known true [] [] (orRecover item) (orRecover item')
  | call {known} (rule : Rule) :
      Twin grammar grammar' depth rule.mode known true [] []
        (grammar rule depth) (grammar' rule depth)
  | weaken {mode mode' known known' takes takes' pending next body body'} :
      Twin grammar grammar' depth mode known takes pending next body body' →
      mode.le mode' = true → (∀ input, known' input → known input) →
      (takes' = true → takes = true) →
      Twin grammar grammar' depth mode' known' takes' pending next body body'
  | enter {mode mode' known takes closer pending body body'} :
      Twin grammar grammar' depth mode' known takes [] [] body body' →
      (∀ below, mode'.Allows (closer :: below)) →
      Twin grammar grammar' depth mode known takes (closer :: pending) (closer :: pending)
        body body'

end Azsl
