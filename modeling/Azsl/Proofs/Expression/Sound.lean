/-
Azsl.Proofs.Expression.Sound — expressions are parsed from their words.

Each form of expression is parsed from its words wherever it may stand (`Expr.sound`): as the
operand of a suffix, of an operator before it or of one between operands, with parentheses where
it binds too loosely for its place.
-/
import Azsl.Proofs.Expression.Climb

namespace Azsl

open ParseState (facing)
open Production
open Relation (ReflTransGen)

namespace Expr

/-! ## Levels -/

theorem Binary.level_lt (operator : Binary) : operator.level < signLevel := by
  have htable : ∀ text ∈ binaryRows.flatten,
      binaryRows.findIdx (·.contains text) < binaryRows.length := by decide
  exact Nat.add_lt_add_left (htable operator.text operator.property) _

theorem Binary.conditionalLevel_lt (operator : Binary) : conditionalLevel < operator.level :=
  Nat.lt_of_lt_of_le (Nat.lt_succ_self _) (Nat.le_add_right _ _)

/-- What binds at least as tightly as this may not follow the words of an expression. -/
def edge : Expr → Nat
  | .conditional _ _ _ => conditionalLevel
  | .assignment _ _ _ => assignmentLevel
  | e => e.level + 1

theorem level_le_edge (e : Expr) : e.level ≤ e.edge := by
  cases e with
  | conditional => exact Nat.le_refl _
  | assignment => exact Nat.le_refl _
  | _ => exact Nat.le_succ _

theorem edge_eq (e : Expr) (h : conditionalLevel < e.level) : e.edge = e.level + 1 := by
  cases e with
  | conditional => exact absurd h (Nat.lt_irrefl _)
  | assignment => exact absurd h (Nat.not_lt_of_lt (Nat.lt_succ_self _))
  | _ => rfl

theorem enclosedNesting_pos {least level nesting : Nat} (h : 0 < nesting) :
    0 < enclosedNesting least level nesting := by
  unfold enclosedNesting
  split
  · exact Nat.succ_pos _
  · exact h

theorem nesting_pos (e : Expr) : 0 < e.nesting := by
  induction e using rec_parts with
  | name | number => exact Nat.one_pos
  | member _ _ ih | stepped _ _ ih => exact enclosedNesting_pos ih
  | signed => exact Nat.succ_pos _
  | index _ _ ih | call _ _ ih | binary _ _ _ ih | conditional _ _ _ ih | assignment _ _ _ ih =>
    exact Nat.lt_of_lt_of_le (enclosedNesting_pos ih) (Nat.le_max_left _ _)

/-! ## Places -/

/-- An expression is parsed from its words in all places where it may stand without
parentheses, and no cast to a type of its words is in the way where it may not. -/
structure Sound (chars : List Char) (e : Expr) : Prop where
  probed : Probed chars e.words e.nesting
  uncast : e.level < suffixLevel → Uncast chars e.words e.nesting
  operand : suffixLevel ≤ e.level → Operand chars e e.words e.nesting
  unary : signLevel ≤ e.level → Unary chars e e.words e.nesting
  climbs : ∀ least ≤ e.level, Climbs chars e e.words e.nesting least e.edge

namespace Sound

variable {chars : List Char} {e : Expr} {least level edge : Nat}

theorem of_operand (hlevel : suffixLevel ≤ e.level) (hprobed : Probed chars e.words e.nesting)
    (hoperand : Operand chars e e.words e.nesting) : Sound chars e where
  probed := hprobed
  uncast hlt := absurd hlevel (Nat.not_le_of_lt hlt)
  operand _ := hoperand
  unary _ := hoperand.unary e.nesting_pos
  climbs _ _ := (hoperand.unary e.nesting_pos).climbs

theorem of_climbs (hlevel : e.level < signLevel) (huncast : Uncast chars e.words e.nesting)
    (hclimbs : ∀ least ≤ e.level, Climbs chars e e.words e.nesting least e.edge) :
    Sound chars e where
  probed := .inr huncast
  uncast _ := huncast
  operand hle := absurd (Nat.lt_of_lt_of_le (Nat.lt_succ_self _) hle) (Nat.not_lt_of_gt hlevel)
  unary hle := absurd hlevel (Nat.not_lt_of_le hle)
  climbs := hclimbs

theorem parses (h : Sound chars e) : Parses chars e e.words e.nesting 0 :=
  ((h.climbs 0 (Nat.zero_le _)).mono (Nat.zero_le _)).parses

theorem group (h : Sound chars e) (hlevel : e.level < suffixLevel) :
    Operand chars e ("(" :: (e.words ++ [")"])) (e.nesting + 1) :=
  .group (h.uncast hlevel) h.parses

theorem operand_enclosed (h : Sound chars e) :
    Operand chars e (enclosed suffixLevel e.level e.words)
      (enclosedNesting suffixLevel e.level e.nesting) := by
  unfold enclosed enclosedNesting
  split
  · exact h.group ‹_›
  · exact h.operand (Nat.le_of_not_lt ‹_›)

theorem unary_enclosed (h : Sound chars e) :
    Unary chars e (enclosed signLevel e.level e.words)
      (enclosedNesting signLevel e.level e.nesting) := by
  unfold enclosed enclosedNesting
  split
  · next hlevel =>
    exact (h.group (Nat.lt_trans hlevel (Nat.lt_succ_self _))).unary (Nat.succ_pos _)
  · exact h.unary (Nat.le_of_not_lt ‹_›)

theorem climbs_enclosed (h : Sound chars e) (hlevel : level ≤ suffixLevel) (hleast : least ≤ level)
    (hedge : level ≤ e.level → edge ≤ e.edge) :
    Climbs chars e (enclosed level e.level e.words) (enclosedNesting level e.level e.nesting) least
      edge := by
  unfold enclosed enclosedNesting
  split
  · next hlt => exact ((h.group (Nat.lt_of_lt_of_le hlt hlevel)).unary (Nat.succ_pos _)).climbs
  · next hnot =>
    have hle : level ≤ e.level := Nat.le_of_not_lt hnot
    exact (h.climbs least (Nat.le_trans hleast hle)).mono (hedge hle)

theorem parses_enclosed (h : Sound chars e) (hlevel : level ≤ suffixLevel) :
    Parses chars e (enclosed level e.level e.words) (enclosedNesting level e.level e.nesting)
      level :=
  (h.climbs_enclosed hlevel (Nat.le_refl _) fun hle => Nat.le_trans hle e.level_le_edge).parses

theorem probed_enclosed (h : Sound chars e) :
    Probed chars (enclosed level e.level e.words) (enclosedNesting level e.level e.nesting) := by
  unfold enclosed enclosedNesting
  split
  · exact .inr uncast_bracket
  · exact h.probed

end Sound

theorem sound (chars : List Char) (e : Expr) : Sound chars e := by
  induction e using rec_parts with
  | name identifier =>
    exact .of_operand (Nat.le_succ _) (.inl (ranked_name identifier)) (operand_name identifier)
  | number numeral =>
    exact .of_operand (Nat.le_succ _) (.inr (uncast_number numeral)) (operand_number numeral)
  | member owner field ih =>
    have hoperand := ih.operand_enclosed.extend (suffix_member owner field)
    have huncast : Uncast chars (enclosed suffixLevel owner.level owner.words ++ [".", field.text])
        (max (enclosedNesting suffixLevel owner.level owner.nesting) 0) :=
      ih.probed_enclosed.uncast_mark (by decide) (by decide)
    rw [Nat.max_zero] at hoperand huncast
    exact .of_operand (Nat.le_refl _) (.inr huncast) hoperand
  | index array position iharray ihposition =>
    exact .of_operand (Nat.le_refl _) (iharray.probed_enclosed.index ihposition.parses)
      (iharray.operand_enclosed.extend (suffix_index ihposition.parses))
  | call function arguments ihfunction iharguments =>
    exact .of_operand (Nat.le_refl _)
      (.inr (ihfunction.probed_enclosed.uncast_mark (by decide) (by decide)))
      (ihfunction.operand_enclosed.extend
        (suffix_call fun argument hmem => (iharguments argument hmem).parses))
  | stepped operand operator ih =>
    have htable : ∀ text ∈ ["++", "--"], text ∈ marks ∧ text ∉ ["[", ")", "::", "<"] := by decide
    obtain ⟨hmark, hword⟩ := htable operator.text operator.property
    have hoperand := ih.operand_enclosed.extend (suffix_stepped operand operator)
    have huncast : Uncast chars (enclosed suffixLevel operand.level operand.words ++ [operator.text])
        (max (enclosedNesting suffixLevel operand.level operand.nesting) 0) :=
      ih.probed_enclosed.uncast_mark hmark hword
    rw [Nat.max_zero] at hoperand huncast
    exact .of_operand (Nat.le_refl _) (.inr huncast) hoperand
  | signed operator operand ih =>
    have hunary := ih.unary_enclosed.signed operator
    exact {
      probed := .inr (uncast_sign operator)
      uncast := fun _ => uncast_sign operator
      operand := fun hle => absurd hle (Nat.not_succ_le_self _)
      unary := fun _ => hunary
      climbs := fun _ _ => hunary.climbs }
  | binary operator left right ihleft ihright =>
    have hlevel : operator.level < suffixLevel := Nat.lt_succ_of_lt operator.level_lt
    have htail := tail_binary operator left (ihright.parses_enclosed (Nat.succ_le_of_lt hlevel))
      (right.opening_words.enclosed _ _)
    refine .of_climbs operator.level_lt (htail.uncast ihleft.probed_enclosed) fun least hleast => ?_
    have hleft : Climbs chars left (enclosed operator.level left.level left.words) _ least
        (operator.level + 1) := ihleft.climbs_enclosed (Nat.le_of_lt hlevel) hleast fun hle => by
      rw [left.edge_eq (Nat.lt_of_lt_of_le operator.conditionalLevel_lt hle)]
      exact Nat.succ_le_succ hle
    exact hleft.extend htail hleast
  | conditional condition yes no ihcondition ihyes ihno =>
    have htail := tail_conditional condition ihyes.parses yes.opening_words
      (ihno.parses_enclosed (by decide))
    have hlevel : conditionalLevel < signLevel := by decide
    refine .of_climbs hlevel (htail.uncast ihcondition.probed_enclosed) fun least hleast => ?_
    have hcondition : Climbs chars condition
        (enclosed (conditionalLevel + 1) condition.level condition.words) _ least
        (conditionalLevel + 1) := ihcondition.climbs_enclosed (by decide)
      (Nat.le_succ_of_le hleast) fun hle => Nat.le_trans hle condition.level_le_edge
    exact hcondition.extend htail hleast
  | assignment operator target value ihtarget ihvalue =>
    have htail := tail_assignment operator target (ihvalue.parses_enclosed (by decide))
      (value.opening_words.enclosed _ _)
    have hlevel : assignmentLevel < signLevel := by decide
    refine .of_climbs hlevel (htail.uncast ihtarget.probed_enclosed) fun least hleast => ?_
    have htarget : Climbs chars target
        (enclosed (assignmentLevel + 1) target.level target.words) _ least
        (assignmentLevel + 1) := ihtarget.climbs_enclosed (by decide)
      (Nat.le_succ_of_le hleast) fun hle => Nat.le_trans hle target.level_le_edge
    exact htarget.extend htail hleast

end Expr

end Azsl
