/-
Azsl.Grammar.Rule — the nonterminals that the grammar is recursive through.

Every cycle of the grammar passes through one of these seven. The productions are written
against a `Grammar`, which says how each of them is parsed at a given nesting depth; tying the
knot is left to the module that puts all productions together. All rules but expressions count
as one level of nesting, and input nested deeper than `maxDepth` does not match.
-/
import Azsl.Grammar.Recovery

namespace Azsl

/-- The nonterminals on the cycles of the grammar. -/
inductive Rule where
  | type
  /-- An expression whose operators all bind at least as tightly as given. -/
  | expression (minPower : Nat)
  | unary
  /-- What may follow `=` in a declaration. -/
  | initializer
  | structured
  | block
  | embedded
deriving DecidableEq, Repr

/-- How the nonterminals are parsed at a nesting depth. -/
abbrev Grammar := Rule → Nat → Production

namespace Grammar

/-- Nesting beyond this depth is an error. -/
def maxDepth : Nat := 64

/-- A production one level deeper. -/
def nested (depth : Nat) (production : Nat → Production) : Production :=
  if maxDepth ≤ depth then Production.fail else production (depth + 1)

end Grammar

end Azsl
