/-
Azsl.Proofs.Grammar.Alike — the same input at two places.

A stretch of a text that moves keeps its tokens, but each of them starts and ends at other
bytes and other points. Lifting a token, a lexeme or a node forgets its points and adds a
number to its bytes. Two of them are alike if they are the same when both are lifted, each by
a number of its own.
-/
import Azsl.Proofs.Grammar.Nesting

namespace Azsl

/-! ## Lifting -/

namespace Location

/-- A location without its point, `by` bytes further on. -/
def lift (shift : Nat) (here : Location) : Location :=
  ⟨here.byte + shift, ⟨0, 0⟩⟩

theorem lift_eq_iff {d e : Nat} {a b : Location} :
    a.lift d = b.lift e ↔ a.byte + d = b.byte + e := by
  simp [lift]

end Location

namespace Label

/-- A label without its points, `by` bytes further on. -/
def lift (shift : Nat) (label : Label) : Label :=
  { label with start := label.start.lift shift, stop := label.stop.lift shift }

end Label

namespace Token

/-- A token without its points, `by` bytes further on, and without what stands before it. -/
def lift (shift : Nat) (token : Token) : Token :=
  { token with
    start := token.start.lift shift
    stop := token.stop.lift shift
    leadsLine := false }

theorem lift_eq_iff {d e : Nat} {a b : Token} :
    a.lift d = b.lift e ↔ a.kind = b.kind ∧ a.text = b.text ∧
      a.start.byte + d = b.start.byte + e ∧ a.stop.byte + d = b.stop.byte + e := by
  simp only [lift, Token.mk.injEq, Location.lift_eq_iff]
  tauto

theorem is_lift (shift : Nat) (token : Token) (text : String) :
    (token.lift shift).is text = token.is text := rfl

end Token

namespace Lexeme

/-- A lexeme without points, `by` bytes further on. -/
def lift (shift : Nat) (lexeme : Lexeme) : Lexeme :=
  ⟨lexeme.leading.map (Token.lift shift), lexeme.token.lift shift⟩

/-- The same input with nothing before its first token. -/
def bare : List Lexeme → List Lexeme
  | [] => []
  | first :: rest => { first with leading := [] } :: rest

@[simp] theorem bare_bare (input : List Lexeme) : bare (bare input) = bare input := by
  cases input <;> rfl

@[simp] theorem length_bare (input : List Lexeme) : (bare input).length = input.length := by
  cases input <;> rfl

@[simp] theorem tokens_bare (input : List Lexeme) : tokens (bare input) = tokens input := by
  cases input <;> rfl

theorem bare_append {left : List Lexeme} (h : left ≠ []) (right : List Lexeme) :
    bare (left ++ right) = bare left ++ right := by
  cases left with
  | nil => exact absurd rfl h
  | cons first rest => rfl

@[simp] theorem bare_eq_nil {input : List Lexeme} : bare input = [] ↔ input = [] := by
  cases input <;> simp [bare]

end Lexeme

/-! ## Alike inputs -/

/-- Two inputs are the same, one `d` and the other `e` bytes further on. -/
def Alike (d e : Nat) (left right : List Lexeme) : Prop :=
  left.map (Lexeme.lift d) = right.map (Lexeme.lift e)

namespace Alike

variable {d e : Nat} {left right : List Lexeme}

theorem length_eq (h : Alike d e left right) : left.length = right.length := by
  simpa using congrArg List.length h

theorem nil_left (h : Alike d e [] right) : right = [] := by
  simpa [Alike] using h.symm

/-- The first lexemes of alike inputs are alike, and so are the rests. -/
theorem cons_left {first : Lexeme} (h : Alike d e (first :: left) right) :
    ∃ other others, right = other :: others ∧ first.lift d = other.lift e ∧
      Alike d e left others := by
  cases right with
  | nil => simp [Alike] at h
  | cons other others =>
    obtain ⟨hfirst, hrest⟩ := List.cons.inj h
    exact ⟨other, others, rfl, hfirst, hrest⟩

theorem bare (h : Alike d e left right) :
    Alike d e (Lexeme.bare left) (Lexeme.bare right) := by
  cases left with
  | nil => rw [h.nil_left]; rfl
  | cons first rest =>
    obtain ⟨other, others, rfl, hfirst, hrest⟩ := h.cons_left
    simp only [Lexeme.lift, Lexeme.mk.injEq] at hfirst
    simp [Alike, Lexeme.bare, Lexeme.lift, hfirst.2] at hrest ⊢
    exact hrest

/-- Cutting off equally many lexemes leaves alike inputs. -/
theorem drop (h : Alike d e left right) (n : Nat) : Alike d e (left.drop n) (right.drop n) := by
  unfold Alike at h ⊢
  rw [List.map_drop, List.map_drop, h]

theorem take (h : Alike d e left right) (n : Nat) : Alike d e (left.take n) (right.take n) := by
  unfold Alike at h ⊢
  rw [List.map_take, List.map_take, h]

end Alike

theorem Lexeme.token_lift_eq {d e : Nat} {a b : Lexeme} (h : a.lift d = b.lift e) :
    a.token.lift d = b.token.lift e := by
  simp only [Lexeme.lift, Lexeme.mk.injEq] at h
  exact h.2

end Azsl
