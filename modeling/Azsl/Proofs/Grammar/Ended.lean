/-
Azsl.Proofs.Grammar.Ended — declarations that end on a closing token of their own.

A declaration ends either on the semicolon behind it or on the brace that closes its body. An
`Ended` production takes that token last, so nothing is looked at behind it. Where a
declaration stands between braces it is an ordinary combination.
-/
import Azsl.Proofs.Grammar.Combination

namespace Azsl

open Production in
/-- Two productions are the same combination and end on the same closing token: a semicolon if
one is pending, a brace if nothing is. -/
inductive Ended (grammar grammar' : Grammar) (depth : Nat) :
    Mode → List Closer → (List Lexeme → Prop) → Production → Production → Prop
  | semicolon {known} :
      Ended grammar grammar' depth .inner [.semicolon] known (expect ";") (expect ";")
  | braced {known item item'} :
      Twin grammar grammar' depth .statement
        (fun input => input ≠ [] ∧ Lookahead.isAt input 0 "\x7d" = false) true [] [] item item' →
      Ended grammar grammar' depth .direct [] known (braced item) (braced item')
  | fail {known} : Ended grammar grammar' depth .direct [] known fail fail
  | block {known} :
      Ended grammar grammar' depth .direct [] known (grammar .block depth) (grammar' .block depth)
  | seq {mode base known takes first first' second second'} :
      Twin grammar grammar' depth mode known takes [] [] first first' →
      Ended grammar grammar' depth mode base Unknown second second' →
      Ended grammar grammar' depth mode base known (first >=> second) (first' >=> second')
  | node {mode base known kind body body'} :
      kind.isComposite = true → Ended grammar grammar' depth mode base known body body' →
      Ended grammar grammar' depth mode base known (node kind body) (node kind body')
  | inScope {mode base known body body'} :
      Ended grammar grammar' depth mode base known body body' →
      Ended grammar grammar' depth mode base known (inScope body) (inScope body')
  | enclose {mode base known kind body body'} :
      kind.isComposite = true → Ended grammar grammar' depth mode base known body body' →
      Ended grammar grammar' depth mode base known (enclose kind body) (enclose kind body')
  | ifAhead {mode base known look yes yes' no no'} :
      Steady known look →
      Ended grammar grammar' depth mode base (fun input => known input ∧ look input = true)
        yes yes' →
      Ended grammar grammar' depth mode base (fun input => known input ∧ look input = false)
        no no' →
      Ended grammar grammar' depth mode base known (ifAhead look yes no) (ifAhead look yes' no')

namespace Ended

variable {grammar grammar' : Grammar} {depth : Nat} {mode : Mode} {base : List Closer}
  {known : List Lexeme → Prop} {body body' : Production}

theorem mode_le_statement (h : Ended grammar grammar' depth mode base known body body') :
    mode.le .statement = true := by
  induction h with
  | semicolon | braced | fail | block => rfl
  | seq _ _ ih | node _ _ ih | inScope _ ih | enclose _ _ ih | ifAhead _ _ _ ih => exact ih

/-- Between braces a declaration is an ordinary combination. -/
theorem twin (h : Ended grammar grammar' depth mode base known body body') :
    Twin grammar grammar' depth .statement known true [] [] body body' := by
  induction h with
  | semicolon => exact .expect ";" .ends_statement
  | braced hitem => exact .braced hitem
  | fail => exact .fail
  | block => exact .rule .block rfl
  | seq hfirst hsecond ih =>
    exact (hfirst.weaken hsecond.mode_le_statement (fun _ => id) id).before ih
  | node hkind _ ih => exact .node hkind ih
  | inScope _ ih => exact .inScope ih
  | enclose hkind _ ih => exact .enclose hkind ih
  | ifAhead hlook _ _ ihyes ihno => exact .ifAhead hlook ihyes ihno

end Ended

end Azsl
