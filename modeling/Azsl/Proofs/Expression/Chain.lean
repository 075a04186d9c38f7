/-
Azsl.Proofs.Expression.Chain — assignments each of which is the value of the one before.

An assignment is taken in one turn, and its value is a list of its own. The operands of a chain
of assignments are all at one level of nesting, so the parser follows a chain however long it is:
in its tree the assignments stand in one another (`parse_chain`).
-/
import Azsl.Proofs.Expression.RoundTrip

namespace Azsl

open ParseState (facing)
open Production

/-- The value of each of so many assignments is the next one. -/
def Chained : Nat → Node → Prop
  | 0, _ => True
  | count + 1, node => ∃ target operator value,
    node = .ofChildren .expression [target, operator, .ofChildren .expressionExt [value]] ∧
      Chained count value

namespace Expr

/-- The assignment that computes nothing. -/
def becomes : Assign := ⟨"=", by decide⟩

/-- So many assignments of a name to itself. -/
def chain (name : Identifier) : Nat → Expr
  | 0 => .name name
  | count + 1 => .assignment becomes (.name name) (chain name count)

variable {chars : List Char} {name : Identifier} {least depth : Nat} {tokens rest : List Token}

theorem words_chain (name : Identifier) (count : Nat) :
    (chain name (count + 1)).words = [name.text] ++ "=" :: (chain name count).words := by
  have hlevel : ¬(chain name count).level < assignmentLevel := by
    cases count <;> simp [chain, level, assignmentLevel, atomLevel, suffixLevel]
  have hvalue : enclosed assignmentLevel (chain name count).level (chain name count).words
      = (chain name count).words := if_neg hlevel
  show [name.text] ++ "=" :: enclosed _ _ _ = _
  rw [hvalue]

theorem words_chain_ne_nil (name : Identifier) (count : Nat) : (chain name count).words ≠ [] := by
  cases count with
  | zero => exact List.cons_ne_nil _ _
  | succ count =>
    rw [words_chain]
    exact List.cons_ne_nil _ _

/-- With spaces in between, a chain repeats the name and the operator. -/
theorem spaced_chain (name : Identifier) (count : Nat) :
    spaced (chain name count).words
      = (List.replicate count (name.text.toList ++ " = ".toList)).flatten ++ name.text.toList := by
  induction count with
  | zero => rfl
  | succ count ih =>
    rw [words_chain, List.singleton_append, spaced_cons _ (List.cons_ne_nil _ _),
      spaced_cons _ (words_chain_ne_nil name count), ih, List.replicate_succ, List.flatten_cons]
    simp

/-- A chain is parsed wherever an assignment may stand. By induction on its length: the first
assignment is one turn behind its target, and its value is the rest of the chain. -/
theorem parses_chain {count : Nat} (hleast : least ≤ assignmentLevel)
    (hdepth : depth < Grammar.maxDepth) (textEnd : Location) (built : List Node)
    (htokens : Spelt chars (chain name count).words tokens) (hrest : Ends chars least rest) :
    ∃ node, Grammar.whole (.expression least) depth (facing textEnd built (tokens ++ rest))
      = .ok (facing textEnd (node :: built) rest) ∧ Chained count node := by
  have hname : Unary chars (.name name) [name.text] 1 := (operand_name name).unary Nat.one_pos
  induction count generalizing least built tokens with
  | zero =>
    have hparses : Parses chars (.name name) [name.text] 1 least := hname.climbs.parses
    obtain ⟨node, hrun, -⟩ := hparses textEnd depth built tokens rest hdepth htokens hrest
    exact ⟨node, hrun, trivial⟩
  | succ count ih =>
    rw [words_chain] at htokens
    obtain ⟨target, back, rfl, htarget, hback⟩ := htokens.append
    have hassign : Spelt chars (becomes.text :: (chain name count).words) back := hback
    obtain ⟨operator, more, inner, rfl, hoperates, hinner⟩ := hassign.assign
    have hopens : OpensAt chars (inner ++ rest) := (chain name count).opening_words inner hinner rest
    have hends : Ends chars (assignmentLevel + 1) (operator :: (more ++ (inner ++ rest))) :=
      hoperates.ends hopens (Nat.lt_succ_self _)
    obtain ⟨node, hnode, -⟩ := hname textEnd [] depth target _ hdepth htarget hends.behind hends.solid
    obtain ⟨value, hvalue, hchained⟩ := ih (Nat.le_refl _) [] hinner (hrest.mono hleast)
    have hloop : whileAhead (Infix.binds least) (operated depth)
        (facing textEnd [node] (operator :: (more ++ (inner ++ rest)))) = .ok _ :=
      whileAhead_of_turns
        (.single (turn_of_operates hoperates hopens hleast (infixTail_assignment hvalue)))
        hrest.loose
    rw [List.append_assoc, List.cons_append, List.append_assoc, Grammar.whole_eq_step]
    exact ⟨_, inScope_facing ((seq_ok hnode).trans hloop), _, _, value, rfl, hchained⟩

/-- The initial value of a variable may be a chain of any length. -/
theorem parse_chain (declared : Identifier) (count : Nat) :
    ∃ type name equal semicolon node, Chained count node ∧
      (parse (chain declared count).declaration none).root
        = .build .sourceFile .origin (Location.origin.advance (chain declared count).declaration)
            [floatStatement type name equal semicolon node] :=
  parse_declared rfl (chain declared count).separate_words (chain declared count).opening_words
    fun textEnd _ _ htokens hrest =>
      parses_chain (Nat.zero_le _) (by decide) textEnd [] htokens hrest

end Expr

end Azsl
