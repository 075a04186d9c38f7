/-
Azsl.Proofs.Grammar.Plain — running productions forward.

On input without trivia nothing but tokens gets into the tree, and a state is no more than the
nodes built so far and the tokens that are left (`ParseState.facing`). For each way to combine
productions there is a lemma that says where the combination ends if its parts end where they
do; for loops, that is the turns they take (`Production.TurnsTo`).
-/
import Azsl.Grammar.Expression
import Azsl.Proofs.Grammar.State
import Mathlib.Logic.Relation

namespace Azsl

/-! ## Input without trivia -/

namespace Lexeme

/-- Tokens without trivia before them. -/
def row (tokens : List Token) : List Lexeme :=
  tokens.map (Lexeme.mk [])

@[simp] theorem row_nil : row [] = [] := rfl

@[simp] theorem row_cons (token : Token) (tokens : List Token) :
    row (token :: tokens) = ⟨[], token⟩ :: row tokens := rfl

@[simp] theorem length_row (tokens : List Token) : (row tokens).length = tokens.length :=
  List.length_map _

theorem group_row {tokens : List Token} (h : ∀ token ∈ tokens, token.kind.isTrivia = false) :
    group tokens = (row tokens, []) := by
  induction tokens with
  | nil => rfl
  | cons token tokens ih =>
    have htoken := h token List.mem_cons_self
    have hrest := ih fun other hmem => h other (List.mem_cons_of_mem _ hmem)
    simp [group, hrest, htoken]

end Lexeme

namespace Lookahead

variable (lexeme : Lexeme) (rest : List Lexeme) (n : Nat) (text : String)

@[simp] theorem token?_zero : token? (lexeme :: rest) 0 = some lexeme.token := rfl
@[simp] theorem token?_succ : token? (lexeme :: rest) (n + 1) = token? rest n := rfl
@[simp] theorem text_zero : Lookahead.text (lexeme :: rest) 0 = lexeme.token.text := rfl
@[simp] theorem text_succ :
    Lookahead.text (lexeme :: rest) (n + 1) = Lookahead.text rest n := rfl
@[simp] theorem kind?_zero : kind? (lexeme :: rest) 0 = some lexeme.token.kind := rfl
@[simp] theorem kind?_succ : kind? (lexeme :: rest) (n + 1) = kind? rest n := rfl
@[simp] theorem isAt_zero : isAt (lexeme :: rest) 0 text = lexeme.token.is text := rfl
@[simp] theorem isAt_succ : isAt (lexeme :: rest) (n + 1) text = isAt rest n text := rfl
@[simp] theorem isAny_cons (texts : List String) :
    isAny (lexeme :: rest) texts = texts.any lexeme.token.is := rfl

end Lookahead

namespace ParseState

variable {textEnd : Location} {built : List Node} {token : Token} {tokens : List Token}

/-- The state before tokens without trivia. -/
def facing (textEnd : Location) (built : List Node) (tokens : List Token) : ParseState :=
  ⟨built, Lexeme.row tokens, [], textEnd⟩

@[simp] theorem facing_rest : (facing textEnd built tokens).rest = Lexeme.row tokens := rfl

@[simp] theorem facing_built : (facing textEnd built tokens).built = built := rfl

@[simp] theorem opened_facing :
    (facing textEnd built tokens).opened = facing textEnd [] tokens := rfl

@[simp] theorem flush_facing : (facing textEnd built tokens).flush = facing textEnd built tokens := by
  cases tokens <;> rfl

@[simp] theorem close_facing (kind : NodeKind) (inner : List Node) (rest : List Token) :
    (facing textEnd built tokens).close kind (facing textEnd inner rest)
      = facing textEnd (.ofChildren kind inner.reverse :: built) rest := rfl

@[simp] theorem enclosed_facing (kind : NodeKind) :
    (facing textEnd built tokens).enclosed kind
      = facing textEnd [.ofChildren kind built.reverse] tokens := rfl

theorem bumpJoined_facing (kind : NodeKind) (first : Token) (more rest : List Token) :
    (facing textEnd built (first :: (more ++ rest))).bumpJoined more.length kind
      = facing textEnd
          (.leaf kind first.start ((first :: more).getLast (by simp)).stop :: built) rest := by
  have hrest : (facing textEnd built (first :: (more ++ rest))).rest
      = ⟨[], first⟩ :: Lexeme.row more ++ Lexeme.row rest := by simp [Lexeme.row]
  rw [bumpJoined_append kind hrest (by simp)]
  have hlast : ((⟨[], first⟩ : Lexeme) :: Lexeme.row more).getLast (by simp)
      = ⟨[], (first :: more).getLast (by simp)⟩ := by
    have hmap : (⟨[], first⟩ : Lexeme) :: Lexeme.row more = (first :: more).map (Lexeme.mk []) := rfl
    simp only [hmap, List.getLast_map]
  rw [hlast]
  rfl

end ParseState

/-! ## Combinations -/

namespace Production

open ParseState

variable {textEnd : Location} {built inner : List Node} {token : Token} {tokens rest : List Token}
  {first second body yes no : Production} {state between last : ParseState}

theorem bumpAs_facing (kind : NodeKind) :
    bumpAs kind (facing textEnd built (token :: tokens))
      = .ok (facing textEnd (.leaf kind token.start token.stop :: built) tokens) := by
  have hjoined : (facing textEnd built (token :: ([] ++ tokens))).bumpJoined 0 kind = _ :=
    bumpJoined_facing kind token [] tokens
  exact congrArg Except.ok hjoined

theorem bump_facing :
    bump (facing textEnd built (token :: tokens))
      = .ok (facing textEnd (.leaf .token token.start token.stop :: built) tokens) :=
  bumpAs_facing .token

theorem expect_facing {text : String} (h : token.is text = true) :
    expect text (facing textEnd built (token :: tokens))
      = .ok (facing textEnd (.leaf .token token.start token.stop :: built) tokens) := by
  have hsees : (facing textEnd built (token :: tokens)).sees text = true := h
  rw [expect, if_pos hsees]
  exact bump_facing

theorem expect_facing_ne {text : String} (h : token.is text = false) :
    expect text (facing textEnd built (token :: tokens)) = .error .mismatch := by
  have hsees : ¬ (facing textEnd built (token :: tokens)).sees text = true := by
    simpa [sees] using h
  rw [expect, if_neg hsees]

theorem seq_ok (hfirst : first state = .ok between) :
    (first >=> second) state = second between := by
  rw [seq_apply, hfirst]
  rfl

theorem seq_error {stop : Stop} (hfirst : first state = .error stop) :
    (first >=> second) state = .error stop := by
  rw [seq_apply, hfirst]
  rfl

theorem node_facing (kind : NodeKind)
    (h : body (facing textEnd [] tokens) = .ok (facing textEnd inner rest)) :
    node kind body (facing textEnd built tokens)
      = .ok (facing textEnd (.ofChildren kind inner.reverse :: built) rest) := by
  rw [node_apply, flush_facing, opened_facing, h]
  rfl

theorem node_facing_error (kind : NodeKind) {stop : Stop}
    (h : body (facing textEnd [] tokens) = .error stop) :
    node kind body (facing textEnd built tokens) = .error stop := by
  rw [node_apply, flush_facing, opened_facing, h]
  rfl

theorem inScope_facing (h : body (facing textEnd [] tokens) = .ok (facing textEnd inner rest)) :
    inScope body (facing textEnd built tokens) = .ok (facing textEnd (inner ++ built) rest) := by
  rw [inScope_apply, flush_facing, opened_facing, h]
  rfl

theorem enclose_facing (kind : NodeKind)
    (h : body (facing textEnd built tokens) = .ok (facing textEnd inner rest)) :
    enclose kind body (facing textEnd built tokens)
      = .ok (facing textEnd [.ofChildren kind inner.reverse] rest) := by
  rw [enclose_apply, h]
  rfl

theorem orElse_mismatch (h : first state = .error .mismatch) :
    orElse first second state = second state := by
  rw [orElse, h]

theorem ifAhead_pos {p : List Lexeme → Bool} (h : p state.rest = true) :
    ifAhead p yes no state = yes state :=
  if_pos h

theorem ifAhead_neg {p : List Lexeme → Bool} (h : p state.rest = false) :
    ifAhead p yes no state = no state :=
  if_neg (by simp [h])

theorem ifAt_pos {text : String} (h : Lookahead.isAt state.rest 0 text = true) :
    ifAt text yes no state = yes state :=
  if_pos h

theorem ifAt_neg {text : String} (h : Lookahead.isAt state.rest 0 text = false) :
    ifAt text yes no state = no state :=
  if_neg (by simp [h])

theorem whenAhead_pos {p : List Lexeme → Bool} (h : p state.rest = true) :
    whenAhead p body state = body state :=
  ifAhead_pos h

theorem whenAhead_neg {p : List Lexeme → Bool} (h : p state.rest = false) :
    whenAhead p body state = .ok state :=
  ifAhead_neg h

theorem whenAt_neg {text : String} (h : Lookahead.isAt state.rest 0 text = false) :
    whenAt text body state = .ok state :=
  ifAt_neg h

theorem unlessAt_pos {text : String} (h : Lookahead.isAt state.rest 0 text = true) :
    unlessAt text body state = .ok state :=
  ifAt_pos h

theorem unlessAt_neg {text : String} (h : Lookahead.isAt state.rest 0 text = false) :
    unlessAt text body state = body state :=
  ifAt_neg h

theorem guard_ok {p : List Lexeme → Bool} (h : p state.rest = true) : guard p state = .ok state :=
  if_pos h

/-! ## Loops -/

/-- A loop takes a turn from one state to the next. -/
structure TurnsTo (look : List Lexeme → Bool) (body : Production) (state next : ParseState) :
    Prop where
  ahead : look state.rest = true
  run : body state = .ok next
  shorter : next.rest.length < state.rest.length

/-- Where the turns of a loop lead, the loop ends if nothing is ahead there. -/
theorem whileAhead_of_turns {look : List Lexeme → Bool}
    (h : Relation.ReflTransGen (TurnsTo look body) state last) (hlast : look last.rest = false) :
    whileAhead look body state = .ok last := by
  have hturns : ∀ fuel, state.rest.length < fuel →
      iterate (whileTurn look body) fuel state = .ok last := by
    induction h using Relation.ReflTransGen.head_induction_on with
    | refl =>
      intro fuel hfuel
      obtain ⟨more, rfl⟩ : ∃ more, fuel = more + 1 := ⟨fuel - 1, by omega⟩
      rw [iterate_whileTurn_succ, if_neg (by simp [hlast])]
    | head hturn _ ih =>
      intro fuel hfuel
      obtain ⟨more, rfl⟩ : ∃ more, fuel = more + 1 := ⟨fuel - 1, by omega⟩
      have hshorter := hturn.shorter
      rw [iterate_whileTurn_succ, if_pos hturn.ahead, hturn.run]
      exact ih more (by omega)
  exact hturns _ (Nat.lt_succ_self _)

end Production

end Azsl
