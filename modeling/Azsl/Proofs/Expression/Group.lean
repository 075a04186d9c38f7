/-
Azsl.Proofs.Expression.Group — parentheses around an expression.

A `(` is tried as a cast before it is taken as a parenthesis. Where an expression has to stand in
parentheses that fails: its words are no type with array sizes in front of the `)`
(`Expr.Uncast`). So what is in parentheses is an operand (`Expr.Operand.group`).
-/
import Azsl.Proofs.Expression.Operand

namespace Azsl

open ParseState (facing)
open Production
open Relation (ReflTransGen)

variable {chars : List Char} {textEnd : Location} {built : List Node} {tokens rest : List Token}
  {words others : List String} {levels levels' depth : Nat}

namespace Production

/-- Behind one expression no comma follows. -/
theorem expressionExt_facing {inner : Node}
    (h : Grammar.whole (.expression 0) depth (facing textEnd [] tokens)
      = .ok (facing textEnd [inner] rest))
    (hrest : Lookahead.isAt (Lexeme.row rest) 0 "," = false) :
    expressionExt Grammar.whole depth (facing textEnd built tokens)
      = .ok (facing textEnd (.ofChildren .expressionExt [inner] :: built) rest) := by
  have hloop : whileAt "," (enclose .expressionExt
      (bump >=> node .expressionExt (Grammar.whole (.expression 0) depth)))
      (facing textEnd [.ofChildren .expressionExt [inner]] rest) = .ok _ :=
    whileAhead_of_turns .refl hrest
  exact inScope_facing ((seq_ok (node_facing .expressionExt h)).trans hloop)

end Production

namespace Expr

/-! ## Trying a cast -/

/-- These words are no type that a cast could be to. -/
def Uncast (chars : List Char) (words : List String) (levels : Nat) : Prop :=
  ∀ (textEnd : Location) (built : List Node) (depth : Nat) (tokens rest : List Token)
    (predefined : Bool), depth + levels ≤ Grammar.maxDepth → Spelt chars words tokens →
    castTo Grammar.whole depth predefined (facing textEnd built (tokens ++ rest)) = .error .mismatch

/-- If a type starts with these words, it is all of them, with the sizes of an array at the
end. -/
def Ranked (chars : List Char) (words : List String) (levels : Nat) : Prop :=
  ∀ (textEnd : Location) (built : List Node) (depth : Nat) (tokens rest : List Token),
    depth + levels ≤ Grammar.maxDepth → Spelt chars words tokens → Behind chars rest →
    Grammar.whole .type depth (facing textEnd built (tokens ++ rest)) = .error .mismatch ∨
      ∃ between inner,
        Grammar.whole .type depth (facing textEnd built (tokens ++ rest)) = .ok between ∧
        ReflTransGen (TurnsTo (Lookahead.isAt · 0 "[") (arrayRank Grammar.whole depth)) between
          (facing textEnd inner rest)

/-- What a cast comes to on these words. -/
def Probed (chars : List Char) (words : List String) (levels : Nat) : Prop :=
  Ranked chars words levels ∨ Uncast chars words levels

theorem ranked_name (name : Identifier) : Ranked chars [name.text] levels := by
  intro textEnd built depth tokens rest hdepth htokens hrest
  obtain ⟨token, _, rfl, htoken, htokens⟩ := htokens.name
  cases htokens
  rcases type_name htoken hrest with hmismatch | ⟨node, hnode⟩
  · exact .inl hmismatch
  · exact .inr ⟨_, _, hnode, .refl⟩

/-- A type starts with a word. -/
theorem uncast_of_opens
    (h : ∀ tokens, Spelt chars words tokens →
      ∃ token rest, tokens = token :: rest ∧ token.Opens chars ∧ token.kind ≠ .word) :
    Uncast chars words levels := by
  intro textEnd built depth tokens rest predefined hdepth htokens
  obtain ⟨token, others, rfl, hopens, hkind⟩ := h tokens htokens
  exact seq_error (type_mismatch hopens hkind)

theorem uncast_bracket : Uncast chars ("(" :: words) levels :=
  uncast_of_opens fun _ htokens => by
    obtain ⟨token, rest, rfl, htoken, -⟩ := htokens.mark (by decide)
    refine ⟨token, rest, rfl, .bracket htoken, ?_⟩
    rw [htoken.kind_eq]
    exact TokenKind.noConfusion

theorem uncast_number (numeral : Numeral) : Uncast chars [numeral.text] levels :=
  uncast_of_opens fun _ htokens => by
    obtain ⟨token, rest, kind, rfl, htoken, hkind, -⟩ := htokens.number
    refine ⟨token, rest, rfl, .number numeral kind htoken hkind, ?_⟩
    rw [htoken.kind_eq]
    rcases hkind with rfl | rfl
    · exact TokenKind.noConfusion
    · exact TokenKind.noConfusion

theorem uncast_sign (operator : Sign) : Uncast chars (operator.text :: words) levels :=
  uncast_of_opens fun _ htokens => by
    have hsign : ∀ text ∈ ["+", "-", "!", "~", "++", "--"], text ∈ marks := by decide
    obtain ⟨token, rest, rfl, htoken, -⟩ := htokens.mark (hsign _ operator.property)
    refine ⟨token, rest, rfl, .sign operator htoken, ?_⟩
    rw [htoken.kind_eq]
    exact TokenKind.noConfusion

theorem Uncast.append (h : Uncast chars words levels) :
    Uncast chars (words ++ others) (max levels levels') := by
  intro textEnd built depth tokens rest predefined hdepth htokens
  obtain ⟨front, back, rfl, hfront, -⟩ := htokens.append
  rw [List.append_assoc]
  exact h textEnd built depth front _ predefined (by omega) hfront

/-- Words with something else behind them than a size or the closing parenthesis. -/
theorem Ranked.uncast (h : Ranked chars words levels)
    (hothers : ∀ tokens rest, Spelt chars others tokens → Behind chars (tokens ++ rest) ∧
      Lookahead.isAt (Lexeme.row (tokens ++ rest)) 0 "[" = false ∧
      Lookahead.isAt (Lexeme.row (tokens ++ rest)) 0 ")" = false) :
    Uncast chars (words ++ others) (max levels levels') := by
  intro textEnd built depth tokens rest predefined hdepth htokens
  obtain ⟨front, back, rfl, hfront, hback⟩ := htokens.append
  obtain ⟨hbehind, hsquare, hround⟩ := hothers back rest hback
  rw [List.append_assoc]
  rcases h textEnd built depth front (back ++ rest) (by omega) hfront hbehind with
    hmismatch | ⟨between, inner, hbetween, hturns⟩
  · exact seq_error hmismatch
  · have hranks : whileAt "[" (arrayRank Grammar.whole depth) between = .ok _ :=
      whileAhead_of_turns hturns hsquare
    obtain ⟨token, more, hmore, -⟩ := hbehind
    rw [hmore] at hranks hround
    exact (seq_ok hbetween).trans ((seq_ok hranks).trans (seq_error (expect_facing_ne hround)))

theorem Probed.uncast (h : Probed chars words levels)
    (hothers : ∀ tokens rest, Spelt chars others tokens → Behind chars (tokens ++ rest) ∧
      Lookahead.isAt (Lexeme.row (tokens ++ rest)) 0 "[" = false ∧
      Lookahead.isAt (Lexeme.row (tokens ++ rest)) 0 ")" = false) :
    Uncast chars (words ++ others) (max levels levels') := by
  rcases h with hranked | huncast
  · exact hranked.uncast hothers
  · exact huncast.append

theorem Probed.uncast_mark {word : String} (h : Probed chars words levels) (hmark : word ∈ marks)
    (hword : word ∉ ["[", ")", "::", "<"]) :
    Uncast chars (words ++ word :: others) (max levels levels') := by
  refine h.uncast fun tokens rest htokens => ?_
  obtain ⟨token, back, rfl, htoken, -⟩ := htokens.mark hmark
  have hne : ∀ text ∈ ["[", ")", "::", "<"], word ≠ text := by
    rintro text hmem rfl
    exact hword hmem
  have hnot : ∀ text ∈ ["[", ")", "::", "<"], token.is text = false := by
    intro text hmem
    rw [htoken.is_eq, beq_eq_false_iff_ne]
    exact hne text hmem
  exact ⟨htoken.behind (hne "::" (by decide)) (hne "<" (by decide)) _, hnot "[" (by decide),
    hnot ")" (by decide)⟩

/-- An index is read as the size of an array. -/
theorem Ranked.index {position : Expr} (h : Ranked chars words levels)
    (hposition : Parses chars position position.words position.nesting 0) :
    Ranked chars (words ++ "[" :: (position.words ++ ["]"]))
      (max levels (position.nesting + 1)) := by
  intro textEnd built depth tokens rest hdepth htokens hrest
  obtain ⟨front, _, rfl, hfront, htokens⟩ := htokens.append
  obtain ⟨opening, _, rfl, hopening, htokens⟩ := htokens.mark (by decide)
  obtain ⟨inner, _, rfl, hinner, htokens⟩ := htokens.append
  obtain ⟨closing, _, rfl, hclosing, htokens⟩ := htokens.mark (by decide)
  cases htokens
  have hrow : front ++ opening :: (inner ++ [closing]) ++ rest
      = front ++ opening :: (inner ++ closing :: rest) := by simp
  rw [hrow]
  rcases h textEnd built depth front _ (by omega) hfront
    (hopening.behind (by decide) (by decide) (inner ++ closing :: rest)) with
    hmismatch | ⟨between, nodes, hbetween, hturns⟩
  · exact .inl hmismatch
  · right
    obtain ⟨node, hnode, -⟩ := hposition textEnd depth [.leaf .token opening.start opening.stop]
      inner (closing :: rest) (by omega) hinner (hclosing.ends (by decide) 0 rest)
    have hopen : opening.is "[" = true := by rw [hopening.is_eq]; rfl
    have hclose : closing.is "]" = true := by rw [hclosing.is_eq]; rfl
    obtain ⟨first, others, hfirst, hopens⟩ := position.opening_words inner hinner (closing :: rest)
    have hsize : Lookahead.isAt (Lexeme.row (inner ++ closing :: rest)) 0 "]" = false := by
      rw [hfirst]
      exact hopens.is_eq_false (by decide) (by decide) (by decide)
    have hunless : unlessAt "]" (Grammar.whole (.expression 0) depth)
        (facing textEnd [.leaf .token opening.start opening.stop] (inner ++ closing :: rest))
        = .ok _ := (unlessAt_neg hsize).trans hnode
    have hrank : arrayRank Grammar.whole depth
        (facing textEnd nodes (opening :: (inner ++ closing :: rest))) = .ok _ :=
      node_facing .arrayRankSpecifier
        ((seq_ok (expect_facing hopen)).trans ((seq_ok hunless).trans (expect_facing hclose)))
    exact ⟨between, _, hbetween, hturns.tail ⟨hopen, hrank, by simp; omega⟩⟩

theorem Probed.index {position : Expr} (h : Probed chars words levels)
    (hposition : Parses chars position position.words position.nesting 0) :
    Probed chars (words ++ "[" :: (position.words ++ ["]"])) (max levels (position.nesting + 1)) := by
  rcases h with hranked | huncast
  · exact .inl (hranked.index hposition)
  · exact .inr huncast.append

/-! ## Parentheses -/

/-- The words of an expression in parentheses are an operand. -/
theorem Operand.group {e : Expr} (huncast : Uncast chars words levels)
    (hparses : Parses chars e words levels 0) :
    Operand chars e ("(" :: (words ++ [")"])) (levels + 1) where
  unsigned {tokens rest} htokens := by
    obtain ⟨opening, _, rfl, hopening, -⟩ := htokens.mark (by decide)
    rw [List.cons_append, Lexeme.row_cons, Lookahead.isAny_cons]
    simp [hopening.is_eq]
  uncast {textEnd built depth tokens rest} hdepth htokens _ := by
    obtain ⟨opening, _, rfl, hopening, htokens⟩ := htokens.mark (by decide)
    obtain ⟨inner, back, rfl, hinner, -⟩ := htokens.append
    rw [List.cons_append, List.append_assoc]
    refine node_facing_error _ ((seq_ok bump_facing).trans ?_)
    exact huncast _ _ _ _ _ _ (by omega) hinner
  run {textEnd depth tokens rest} hdepth htokens hrest := by
    obtain ⟨opening, _, rfl, hopening, htokens⟩ := htokens.mark (by decide)
    obtain ⟨inner, _, rfl, hinner, htokens⟩ := htokens.append
    obtain ⟨closing, _, rfl, hclosing, htokens⟩ := htokens.mark (by decide)
    cases htokens
    obtain ⟨node, hnode, hstands⟩ := hparses textEnd (depth + 1) [] inner (closing :: rest)
      (by omega) hinner (hclosing.ends (by decide) 0 rest)
    have hround : opening.is "(" = true := by rw [hopening.is_eq]; rfl
    have hclose : closing.is ")" = true := by rw [hclosing.is_eq]; rfl
    have hcomma : closing.is "," = false := by rw [hclosing.is_eq]; rfl
    have hliteral : Lookahead.isLiteral (Lexeme.row (opening :: (inner ++ closing :: rest)))
        = false := by
      simp [Lookahead.isLiteral, hopening.kind_eq, hopening.is_eq]
    have hlist : expressionExt Grammar.whole (depth + 1)
        (facing textEnd [.leaf .token opening.start opening.stop] (inner ++ closing :: rest))
        = .ok _ := expressionExt_facing hnode hcomma
    have hprimary : primary Grammar.whole (depth + 1)
        (facing textEnd [] (opening :: (inner ++ closing :: rest))) = .ok _ :=
      (ifAhead_neg hliteral).trans ((ifAhead_pos hround).trans
        (node_facing .expression ((seq_ok bump_facing).trans
          ((seq_ok hlist).trans (expect_facing hclose)))))
    have hrow : opening :: (inner ++ [closing]) ++ rest = opening :: (inner ++ closing :: rest) := by
      simp
    rw [hrow]
    exact ⟨_, _, hprimary, .refl, hstands.group _ _⟩

end Expr

end Azsl
