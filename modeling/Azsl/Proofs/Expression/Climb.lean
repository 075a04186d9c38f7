/-
Azsl.Proofs.Expression.Climb — operators before and between operands.

An expression is parsed by taking one operand and then turn by turn an operator that binds
tightly enough, with its other operands (`Expr.Climbs`). How far that goes is decided by what is
behind the last operand: a binary operator leaves what binds no tighter than itself, assignments
and conditionals leave only what binds less tightly.
-/
import Azsl.Proofs.Expression.Group

namespace Azsl

open ParseState (facing)
open Production
open Relation (ReflTransGen)

variable {chars : List Char} {textEnd : Location} {built : List Node} {tokens rest : List Token}
  {words others : List String} {levels levels' depth least least' edge : Nat}

theorem Ends.mono (h : Ends chars least tokens) (hle : least ≤ least') :
    Ends chars least' tokens := by
  refine ⟨h.behind, h.solid, ?_⟩
  have hloose := h.loose
  rw [Infix.binds, Option.any_eq_false] at hloose ⊢
  intro next hnext
  have hnot := hloose next hnext
  simp only [decide_eq_false_iff_not] at hnot ⊢
  omega

namespace Expr

/-! ## Operators before an operand -/

/-- In words, an expression is parsed as an operand with the operators before and behind it. -/
def Unary (chars : List Char) (e : Expr) (words : List String) (levels : Nat) : Prop :=
  ∀ (textEnd : Location) (built : List Node) (depth : Nat) (tokens rest : List Token),
    depth + levels ≤ Grammar.maxDepth → Spelt chars words tokens → Behind chars rest →
    suffixAhead (Lexeme.row rest) = false →
    ∃ node, Grammar.whole .unary depth (facing textEnd built (tokens ++ rest))
      = .ok (facing textEnd (node :: built) rest) ∧ Stands chars e node

variable {e : Expr}

theorem whole_unary (h : depth < Grammar.maxDepth) :
    Grammar.whole .unary depth
      = ifAhead (Lookahead.isAny · ["+", "-", "!", "~", "++", "--"])
          (node .expression
            (tokenNode .prefixUnaryOperator >=> Grammar.whole .unary (depth + 1)))
          (ifAt "("
            (orElse (cast Grammar.whole (depth + 1))
              (inScope (primary Grammar.whole (depth + 1) >=> postfixes Grammar.whole (depth + 1))))
            (inScope
              (primary Grammar.whole (depth + 1) >=> postfixes Grammar.whole (depth + 1)))) := by
  rw [Grammar.whole_eq_step]
  exact if_neg (Nat.not_le_of_lt h)

theorem Operand.unary (h : Operand chars e words levels) (hpos : 0 < levels) :
    Unary chars e words levels := by
  intro textEnd built depth tokens rest hdepth htokens hrest hsolid
  obtain ⟨between, node, hprimary, hturns, hstands⟩ := h.run hdepth htokens hrest
  have hpostfixes : postfixes Grammar.whole (depth + 1) between
      = .ok (facing textEnd [node] rest) := by
    rw [postfixes_eq]
    exact whileAhead_of_turns hturns hsolid
  have hoperand : inScope
      (primary Grammar.whole (depth + 1) >=> postfixes Grammar.whole (depth + 1))
      (facing textEnd built (tokens ++ rest)) = .ok (facing textEnd (node :: built) rest) :=
    inScope_facing ((seq_ok hprimary).trans hpostfixes)
  refine ⟨node, ?_, hstands⟩
  rw [whole_unary (by omega), ifAhead_neg (h.unsigned htokens)]
  by_cases hbracket : Lookahead.isAt (Lexeme.row (tokens ++ rest)) 0 "(" = true
  · rw [ifAt_pos hbracket, orElse_mismatch (h.uncast hdepth htokens hbracket)]
    exact hoperand
  · rw [ifAt_neg (Bool.eq_false_iff.mpr hbracket)]
    exact hoperand

theorem Unary.signed (operator : Sign) (h : Unary chars e words levels) :
    Unary chars (.signed operator e) (operator.text :: words) (levels + 1) := by
  intro textEnd built depth tokens rest hdepth htokens hrest hsolid
  have hsigns : ∀ text ∈ ["+", "-", "!", "~", "++", "--"], text ∈ marks := by decide
  obtain ⟨token, inner, rfl, htoken, hinner⟩ := htokens.mark (hsigns operator.text operator.property)
  have hsign : Lookahead.isAny (Lexeme.row (token :: (inner ++ rest)))
      ["+", "-", "!", "~", "++", "--"] = true := by
    rw [Lexeme.row_cons, Lookahead.isAny_cons, List.any_eq_true]
    exact ⟨operator.text, operator.property, by rw [htoken.is_eq, beq_self_eq_true]⟩
  obtain ⟨operand, hoperand, hstands⟩ := h textEnd
    [.ofChildren .prefixUnaryOperator [.leaf .token token.start token.stop]] (depth + 1) inner rest
    (by omega) hinner hrest hsolid
  have htokenNode : tokenNode .prefixUnaryOperator (facing textEnd [] (token :: (inner ++ rest)))
      = .ok _ := node_facing _ bump_facing
  rw [List.cons_append, whole_unary (by omega), ifAhead_pos hsign]
  exact ⟨_, node_facing _ ((seq_ok htokenNode).trans hoperand), hstands.signed htoken.source⟩

/-! ## Operators between operands -/

/-- One more operator around what is built. -/
def operated (depth : Nat) : Production :=
  enclose .expression (infixNext Grammar.whole depth)

/-- In words, an expression is parsed as one operand and operators of at least a power, whatever
follows that ends it at the given edge. -/
def Climbs (chars : List Char) (e : Expr) (words : List String) (levels least edge : Nat) : Prop :=
  ∀ (textEnd : Location) (depth : Nat) (tokens rest : List Token),
    depth + levels ≤ Grammar.maxDepth → Spelt chars words tokens → Ends chars edge rest →
    ∃ between node, Grammar.whole .unary depth (facing textEnd [] (tokens ++ rest)) = .ok between ∧
      ReflTransGen (TurnsTo (Infix.binds least) (operated depth)) between
        (facing textEnd [node] rest) ∧
      Stands chars e node

theorem Unary.climbs (h : Unary chars e words levels) : Climbs chars e words levels least edge := by
  intro textEnd depth tokens rest hdepth htokens hrest
  obtain ⟨node, hnode, hstands⟩ := h textEnd [] depth tokens rest hdepth htokens hrest.behind
    hrest.solid
  exact ⟨_, node, hnode, .refl, hstands⟩

theorem Climbs.mono (h : Climbs chars e words levels least edge) (hle : least' ≤ edge) :
    Climbs chars e words levels least least' :=
  fun textEnd depth tokens rest hdepth htokens hrest =>
    h textEnd depth tokens rest hdepth htokens (hrest.mono hle)

/-- Where the operators end, the expression does. -/
theorem Climbs.parses (h : Climbs chars e words levels least least) :
    Parses chars e words levels least := by
  intro textEnd depth built tokens rest hdepth htokens hrest
  obtain ⟨between, node, hunary, hturns, hstands⟩ := h textEnd depth tokens rest hdepth htokens hrest
  have hloop : whileAhead (Infix.binds least) (operated depth) between
      = .ok (facing textEnd [node] rest) := whileAhead_of_turns hturns hrest.loose
  refine ⟨node, ?_, hstands⟩
  rw [Grammar.whole_eq_step]
  exact inScope_facing ((seq_ok hunary).trans hloop)

/-- With an operator of some power and its other operands behind it, one expression becomes
another. -/
structure Tail (chars : List Char) (e e' : Expr) (words : List String) (levels power edge : Nat) :
    Prop where
  ends : ∀ {tokens rest : List Token}, Spelt chars words tokens →
    Ends chars (power + 1) (tokens ++ rest)
  unclosed : ∀ {tokens rest : List Token}, Spelt chars words tokens →
    Lookahead.isAt (Lexeme.row (tokens ++ rest)) 0 ")" = false
  turn : ∀ {textEnd : Location} {depth least : Nat} {node : Node} {tokens rest : List Token},
    depth + levels ≤ Grammar.maxDepth → least ≤ power → Spelt chars words tokens →
    Ends chars edge rest → Stands chars e node →
    ∃ node', TurnsTo (Infix.binds least) (operated depth) (facing textEnd [node] (tokens ++ rest))
      (facing textEnd [node'] rest) ∧ Stands chars e' node'

theorem Climbs.extend {e e' : Expr} {power : Nat}
    (h : Climbs chars e words levels least (power + 1))
    (htail : Tail chars e e' others levels' power edge) (hleast : least ≤ power) :
    Climbs chars e' (words ++ others) (max levels levels') least edge := by
  intro textEnd depth tokens rest hdepth htokens hrest
  obtain ⟨front, back, rfl, hfront, hback⟩ := htokens.append
  rw [List.append_assoc]
  obtain ⟨between, node, hunary, hturns, hnode⟩ :=
    h textEnd depth front (back ++ rest) (by omega) hfront (htail.ends hback)
  have hdepth' : depth + levels' ≤ Grammar.maxDepth := by omega
  obtain ⟨node', hturn, hnode'⟩ := htail.turn hdepth' hleast hback hrest hnode
  exact ⟨between, node', hunary, hturns.tail hturn, hnode'⟩

/-- No cast stops in front of an operator. -/
theorem Tail.uncast {e e' : Expr} {power : Nat} (htail : Tail chars e e' others levels' power edge)
    (h : Probed chars words levels) : Uncast chars (words ++ others) (max levels levels') := by
  refine h.uncast fun tokens rest htokens => ?_
  have hends : Ends chars (power + 1) (tokens ++ rest) := htail.ends htokens
  have hsolid := hends.solid
  rw [suffixAhead, Lookahead.isAny, List.any_eq_false] at hsolid
  exact ⟨hends.behind, Bool.eq_false_iff.mpr (hsolid "[" (by decide)), htail.unclosed htokens⟩

/-- An operator and its other operands are taken in one turn. -/
theorem turn_of_operates {word : String} {operator : Infix} {token : Token} {more : List Token}
    {node : Node} {inner : List Node} (hoperates : Operates chars word operator token more)
    (hopens : OpensAt chars (tokens ++ rest)) (hleast : least ≤ operator.power)
    (hrun : infixTail Grammar.whole depth more.length operator
        (facing textEnd [node] (token :: (more ++ (tokens ++ rest)))) = .ok (facing textEnd inner rest)) :
    TurnsTo (Infix.binds least) (operated depth)
      (facing textEnd [node] (token :: (more ++ (tokens ++ rest))))
      (facing textEnd [.ofChildren .expression inner.reverse] rest) := by
  have hahead : Infix.ahead? (Lexeme.row (token :: (more ++ (tokens ++ rest))))
      = some (operator, more.length) := hoperates.ahead hopens
  refine ⟨?_, enclose_facing .expression ?_, ?_⟩
  · rw [ParseState.facing_rest, Infix.binds, hahead]
    exact decide_eq_true hleast
  · show infixOf _ _ (Infix.ahead? (Lexeme.row _)) _ = _
    rw [hahead]
    exact hrun
  · simp
    omega

/-- An operator that is taken in one turn makes one expression another. -/
theorem tail_of_operates {e e' : Expr} {word : String} (operator : Infix)
    (hword : ∀ {tokens : List Token}, Spelt chars (word :: others) tokens →
      ∃ token more back, tokens = token :: (more ++ back) ∧
        Operates chars word operator token more ∧ Spelt chars others back)
    (hopening : Opening chars others)
    (htail : ∀ (textEnd : Location) (depth : Nat) (node : Node) (token : Token)
      (more tokens rest : List Token), depth + levels ≤ Grammar.maxDepth →
      Operates chars word operator token more → Spelt chars others tokens →
      Ends chars edge rest → Stands chars e node →
      ∃ inner, infixTail Grammar.whole depth more.length operator
          (facing textEnd [node] (token :: (more ++ (tokens ++ rest)))) = .ok (facing textEnd inner rest) ∧
        Stands chars e' (.ofChildren .expression inner.reverse)) :
    Tail chars e e' (word :: others) levels operator.power edge where
  ends {tokens rest} htokens := by
    obtain ⟨token, more, back, rfl, hoperates, hback⟩ := hword htokens
    rw [List.cons_append, List.append_assoc]
    exact hoperates.ends (hopening back hback rest) (Nat.lt_succ_self _)
  unclosed {tokens rest} htokens := by
    obtain ⟨token, more, back, rfl, hoperates, -⟩ := hword htokens
    exact hoperates.others ")" (by decide)
  turn {textEnd depth least node tokens rest} hdepth hleast htokens hrest hnode := by
    obtain ⟨token, more, back, rfl, hoperates, hback⟩ := hword htokens
    obtain ⟨inner, hrun, hstands⟩ := htail textEnd depth node token more back rest hdepth
      hoperates hback hrest hnode
    have hrow : token :: (more ++ back) ++ rest = token :: (more ++ (back ++ rest)) := by simp
    rw [hrow]
    exact ⟨_, turn_of_operates hoperates (hopening back hback rest) hleast hrun, hstands⟩

variable {left right : Expr}

theorem tail_binary (operator : Binary) (left : Expr)
    (hright : Parses chars right words levels (operator.level + 1))
    (hopening : Opening chars words) :
    Tail chars left (.binary operator left right) (operator.text :: words) levels operator.level
      (operator.level + 1) :=
  tail_of_operates (.binary operator.level) (fun htokens => htokens.binary) hopening
    fun textEnd depth node token more tokens rest hdepth hoperates htokens hrest hnode => by
      obtain ⟨third, hthird, hstands⟩ := hright textEnd depth
        [.ofChildren .binaryOperator
          [.leaf .token token.start ((token :: more).getLast (by simp)).stop], node]
        tokens rest hdepth htokens hrest
      have hoperator : Production.node .binaryOperator (bumpJoined more.length .token)
          (facing textEnd [node] (token :: (more ++ (tokens ++ rest)))) = .ok _ :=
        node_facing _ (congrArg Except.ok (ParseState.bumpJoined_facing .token token more _))
      exact ⟨_, (seq_ok hoperator).trans hthird, hnode.binary hstands hoperates.source⟩

/-- The value of an assignment is a list of its own. -/
theorem infixTail_assignment {token : Token} {more : List Token} {node third : Node}
    (hthird : Grammar.whole (.expression assignmentLevel) depth (facing textEnd [] (tokens ++ rest))
      = .ok (facing textEnd [third] rest)) :
    infixTail Grammar.whole depth more.length .assignment
        (facing textEnd [node] (token :: (more ++ (tokens ++ rest))))
      = .ok (facing textEnd
          [.ofChildren .expressionExt [third],
            .ofChildren .assignmentOperator
              [.leaf .token token.start ((token :: more).getLast (by simp)).stop], node] rest) := by
  have hoperator : Production.node .assignmentOperator (bumpJoined more.length .token)
      (facing textEnd [node] (token :: (more ++ (tokens ++ rest)))) = .ok _ :=
    node_facing _ (congrArg Except.ok (ParseState.bumpJoined_facing .token token more _))
  exact (seq_ok hoperator).trans (node_facing _ hthird)

theorem tail_assignment (operator : Assign) (left : Expr)
    (hright : Parses chars right words levels assignmentLevel) (hopening : Opening chars words) :
    Tail chars left (.assignment operator left right) (operator.text :: words) levels
      assignmentLevel assignmentLevel :=
  tail_of_operates .assignment (fun htokens => htokens.assign) hopening
    fun textEnd depth node token more tokens rest hdepth hoperates htokens hrest hnode => by
      obtain ⟨third, hthird, hstands⟩ := hright textEnd depth [] tokens rest hdepth htokens hrest
      exact ⟨_, infixTail_assignment hthird, hnode.assignment hstands hoperates.source⟩

theorem tail_conditional {yes no : Expr} (condition : Expr) (hyes : Parses chars yes words levels 0)
    (hopening : Opening chars words) (hno : Parses chars no others levels' conditionalLevel) :
    Tail chars condition (.conditional condition yes no) ("?" :: (words ++ ":" :: others))
      (max levels levels') conditionalLevel conditionalLevel :=
  tail_of_operates .conditional
    (fun htokens => htokens.operator (.inl ⟨by decide, by decide⟩) rfl) (hopening.append _)
    fun textEnd depth node token more tokens rest hdepth hoperates htokens hrest hnode => by
      obtain rfl : more = [] := hoperates.single rfl
      obtain ⟨middle, _, rfl, hmiddle, htokens⟩ := htokens.append
      obtain ⟨colon, back, rfl, hcolon, hback⟩ := htokens.mark (by decide)
      obtain ⟨third, hthird, hstands⟩ := hyes textEnd depth [] middle (colon :: (back ++ rest))
        (by omega) hmiddle (hcolon.ends (by decide) 0 _)
      obtain ⟨fifth, hfifth, hstands'⟩ := hno textEnd depth [] back rest (by omega) hback hrest
      have his : colon.is ":" = true := by rw [hcolon.is_eq]; rfl
      have hcomma : colon.is "," = false := by rw [hcolon.is_eq]; rfl
      have hlist : expressionExt Grammar.whole depth
          (facing textEnd [.leaf .token token.start token.stop, node]
            (middle ++ colon :: (back ++ rest))) = .ok _ := expressionExt_facing hthird hcomma
      have hrow : token :: ([] ++ ((middle ++ colon :: back) ++ rest))
          = token :: (middle ++ colon :: (back ++ rest)) := by simp
      rw [hrow]
      exact ⟨_, (seq_ok bump_facing).trans ((seq_ok hlist).trans ((seq_ok (expect_facing his)).trans
        (node_facing .expressionExt hfifth))), hnode.conditional hstands hstands' _ _⟩

end Expr

end Azsl
