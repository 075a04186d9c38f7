/-
Azsl.Proofs.Grammar.State — what the steps of a parse do to its state.

One lemma for each way a state changes and for each way productions are combined, so that no
later proof has to open them.
-/
import Azsl.Grammar.Name
import Azsl.Grammar.Recovery
import Azsl.Proofs.Grammar.Alike
import Azsl.Proofs.Text.Bytes

namespace Azsl

namespace ParseState

/-! ## Flushing -/

theorem flush_cons {state : ParseState} {first : Lexeme} {others : List Lexeme}
    (h : state.rest = first :: others) :
    state.flush = { state with
      built := (first.leading.map triviaNode).reverse ++ state.built
      rest := { first with leading := [] } :: others } := by
  simp [flush, h]

theorem flush_nil {state : ParseState} (h : state.rest = []) :
    state.flush = { state with
      built := (state.trailing.map triviaNode).reverse ++ state.built
      trailing := [] } := by
  simp [flush, h]

@[simp] theorem flush_rest (state : ParseState) : state.flush.rest = Lexeme.bare state.rest := by
  cases h : state.rest with
  | nil => rw [flush_nil h]; exact h
  | cons first others => rw [flush_cons h]; rfl

@[simp] theorem flush_textEnd (state : ParseState) : state.flush.textEnd = state.textEnd := by
  cases h : state.rest with
  | nil => rw [flush_nil h]
  | cons first others => rw [flush_cons h]

@[simp] theorem opened_rest (state : ParseState) : state.opened.rest = state.rest := rfl
@[simp] theorem opened_built (state : ParseState) : state.opened.built = [] := rfl

/-- Opening a node takes the trivia before the next token away from it. -/
theorem flush_opened_rest {state : ParseState} {first : Lexeme} {others : List Lexeme}
    (h : state.rest = first :: others) :
    state.flush.opened.rest = { first with leading := [] } :: others := by
  rw [opened_rest, flush_rest, h]
  rfl

@[simp] theorem close_rest (outer : ParseState) (kind : NodeKind) (inner : ParseState) :
    (outer.close kind inner).rest = inner.rest := rfl

@[simp] theorem enclosed_rest (kind : NodeKind) (state : ParseState) :
    (state.enclosed kind).rest = state.rest := rfl

@[simp] theorem missing_rest (state : ParseState) :
    state.missing.rest = Lexeme.bare state.rest := by
  simp [missing]

/-! ## Taking tokens -/

theorem sees_eq_true {state : ParseState} {text : String} : state.sees text = true ↔
    ∃ first others, state.rest = first :: others ∧ first.token.is text = true := by
  unfold sees Lookahead.isAt Lookahead.token?
  cases state.rest <;> simp

/-- Taking a group of tokens makes a leaf from the start of the first to the end of the last. -/
theorem bumpJoined_append {state : ParseState} {count : Nat} (kind : NodeKind)
    {first : Lexeme} {more others : List Lexeme} (hrest : state.rest = first :: more ++ others)
    (hcount : more.length = count) :
    state.bumpJoined count kind = { state with
      built := .leaf kind first.token.start ((first :: more).getLast (by simp)).token.stop ::
        ((first.leading.map triviaNode).reverse ++ state.built)
      rest := others } := by
  have hflush := flush_cons (hrest : state.rest = first :: (more ++ others))
  have hlast : Lookahead.token? state.flush.rest count
      = some ((first :: more).getLast (by simp)).token := by
    rw [hflush]
    subst hcount
    cases more with
    | nil => rfl
    | cons second others' =>
      have hget : (second :: others' ++ others)[others'.length]?
          = some ((second :: others').getLast (by simp)) := by
        rw [List.getElem?_append_left (by simp), List.getLast_eq_getElem,
          List.getElem?_eq_getElem (by simp)]
        simp
      show ((second :: others' ++ others)[others'.length]?).map (·.token) = _
      rw [hget]
      rfl
  have hfirst : Lookahead.token? state.flush.rest 0 = some first.token := by
    rw [hflush]; rfl
  have hdrop : state.flush.rest.drop (count + 1) = others := by
    rw [hflush]
    simp [← hcount]
  unfold bumpJoined
  simp only [hfirst, hlast, hdrop]
  rw [hflush]

/-- Where there are enough tokens to take, the input splits behind them. -/
theorem exists_taken {state : ParseState} {count : Nat}
    (h : count < (Lexeme.bare state.rest).length) :
    ∃ first more others, state.rest = first :: more ++ others ∧ more.length = count ∧
      (Lexeme.bare state.rest).take (count + 1) = { first with leading := [] } :: more := by
  rw [Lexeme.length_bare] at h
  cases hrest : state.rest with
  | nil => simp [hrest] at h
  | cons first others =>
    rw [hrest, List.length_cons] at h
    refine ⟨first, others.take count, others.drop count, ?_, ?_, rfl⟩
    · rw [List.cons_append, List.take_append_drop]
    · rw [List.length_take]
      omega

theorem bumpAs_cons {state : ParseState} {first : Lexeme} {others : List Lexeme}
    (kind : NodeKind) (h : state.rest = first :: others) :
    state.bumpAs kind = { state with
      built := .leaf kind first.token.start first.token.stop ::
        ((first.leading.map triviaNode).reverse ++ state.built)
      rest := others } := by
  have hrest : state.rest = first :: [] ++ others := h
  exact bumpJoined_append kind hrest rfl

theorem bump_cons {state : ParseState} {first : Lexeme} {others : List Lexeme}
    (h : state.rest = first :: others) :
    state.bump = { state with
      built := .leaf .token first.token.start first.token.stop ::
        ((first.leading.map triviaNode).reverse ++ state.built)
      rest := others } :=
  bumpAs_cons .token h

theorem bump_nil {state : ParseState} (h : state.rest = []) : state.bump = state.flush := by
  simp [bump, bumpAs, bumpJoined, Lookahead.token?, h]

end ParseState

/-! ## Strings -/

open Production in
/-- What is made of the characters of a string are leaves with a width. -/
theorem Node.escapes_eq_leaf {here : Location} {chars : List Char} {node : Node}
    (h : node ∈ escapes here chars) :
    ∃ start stop, start.byte < stop.byte ∧ node = .leaf .escapeSequence start stop := by
  fun_induction escapes here chars with
  | case1 here c rest stop ih =>
    rcases List.mem_cons.mp h with rfl | h
    · refine ⟨here, stop, ?_, rfl⟩
      have hstep := Location.byte_step here '\\'
      have hstop : stop.byte = _ := Location.byte_step (here.step '\\') c
      have hpos := c.utf8Size_pos
      omega
    · exact ih h
  | case2 here c rest _ ih => exact ih h
  | case3 here => cases h

/-- The parts of a string are its quotes and its escape sequences. -/
theorem Node.stringParts_eq_leaf {token : Token} {part : Node}
    (h : part ∈ Production.stringParts token) :
    ∃ kind start stop, (kind = .token ∨ kind = .escapeSequence) ∧
      part = .leaf kind start stop := by
  rw [Production.stringParts] at h
  rcases List.mem_append.mp h with h | h
  · rcases List.mem_cons.mp h with rfl | h
    · exact ⟨_, _, _, .inl rfl, rfl⟩
    · obtain ⟨start, stop, -, rfl⟩ := Node.escapes_eq_leaf h
      exact ⟨_, _, _, .inr rfl, rfl⟩
  · obtain rfl := List.mem_singleton.mp h
    exact ⟨_, _, _, .inl rfl, rfl⟩

/-! ## Running combinations -/

namespace Production

theorem expect_eq_ok {text : String} {state last : ParseState} :
    expect text state = .ok last ↔ state.sees text = true ∧ last = state.bump := by
  unfold expect
  split
  · rename_i hsees
    simp [hsees, eq_comm]
  · rename_i hsees
    simp [hsees]

theorem guard_eq_ok {p : List Lexeme → Bool} {state last : ParseState} :
    guard p state = .ok last ↔ p state.rest = true ∧ last = state := by
  unfold guard
  split
  · rename_i hp
    simp [hp, eq_comm]
  · rename_i hp
    simp [hp]

theorem stringLiteral_eq_ok {state last : ParseState} :
    stringLiteral state = .ok last ↔ ∃ first others, state.rest = first :: others ∧
      first.token.kind = .stringLiteral ∧ last = state.flush.close .stringLiteral
        { state.flush with built := (stringParts first.token).reverse, rest := others } := by
  unfold stringLiteral
  cases hrest : state.rest with
  | nil => simp [Lookahead.token?]
  | cons first others =>
    have htoken : Lookahead.token? (first :: others) 0 = some first.token := rfl
    have hdrop : state.flush.rest.drop 1 = others := by
      rw [ParseState.flush_rest, hrest]
      rfl
    simp only [htoken, hdrop]
    constructor
    · intro hrun
      split at hrun
      · rename_i hkind
        exact ⟨first, others, rfl, hkind, (Except.ok.inj hrun).symm⟩
      · cases hrun
    · rintro ⟨_, _, hsame, hkind, rfl⟩
      obtain ⟨rfl, rfl⟩ := List.cons.inj hsame
      exact if_pos hkind

/-- A choice runs its second branch only where the first does not match. -/
theorem orElse_eq_ok {first second : Production} {state last : ParseState} :
    orElse first second state = .ok last ↔ first state = .ok last ∨
      first state = .error .mismatch ∧ second state = .ok last := by
  unfold orElse
  cases first state with
  | ok between => simp
  | error stop => cases stop <;> simp

theorem ifAhead_eq_ok {p : List Lexeme → Bool} {yes no : Production} {state last : ParseState} :
    ifAhead p yes no state = .ok last ↔ p state.rest = true ∧ yes state = .ok last ∨
      p state.rest = false ∧ no state = .ok last := by
  unfold ifAhead
  cases p state.rest <;> simp

theorem seq_apply (first second : Production) (state : ParseState) :
    (first >=> second) state = (first state).bind second := rfl

theorem seq_eq_ok {first second : Production} {state last : ParseState} :
    (first >=> second) state = .ok last ↔
      ∃ between, first state = .ok between ∧ second between = .ok last := by
  rw [seq_apply]
  cases first state with
  | error stop => simp [Except.bind]
  | ok between => simp [Except.bind]

theorem seq_assoc (first second third : Production) :
    ((first >=> second) >=> third) = (first >=> (second >=> third)) := by
  funext state
  rw [seq_apply, seq_apply, seq_apply]
  cases first state with
  | error stop => rfl
  | ok between => rfl

theorem node_apply (kind : NodeKind) (body : Production) (state : ParseState) :
    node kind body state = (body state.flush.opened).map (state.flush.close kind) := by
  unfold node
  cases body state.flush.opened <;> rfl

theorem node_eq_ok {kind : NodeKind} {body : Production} {state last : ParseState} :
    node kind body state = .ok last ↔
      ∃ inner, body state.flush.opened = .ok inner ∧ last = state.flush.close kind inner := by
  rw [node_apply]
  cases body state.flush.opened <;> simp [Except.map, eq_comm]

theorem inScope_apply (body : Production) (state : ParseState) :
    inScope body state = (body state.flush.opened).map
      fun inner => { inner with built := inner.built ++ state.flush.built } := by
  unfold inScope
  cases body state.flush.opened <;> rfl

theorem inScope_eq_ok {body : Production} {state last : ParseState} :
    inScope body state = .ok last ↔ ∃ inner, body state.flush.opened = .ok inner ∧
      last = { inner with built := inner.built ++ state.flush.built } := by
  rw [inScope_apply]
  cases body state.flush.opened <;> simp [Except.map, eq_comm]

theorem enclose_apply (kind : NodeKind) (body : Production) (state : ParseState) :
    enclose kind body state = (body state).map (ParseState.enclosed kind) := by
  unfold enclose
  cases body state <;> rfl

theorem enclose_eq_ok {kind : NodeKind} {body : Production} {state last : ParseState} :
    enclose kind body state = .ok last ↔
      ∃ inner, body state = .ok inner ∧ last = inner.enclosed kind := by
  rw [enclose_apply]
  cases body state <;> simp [Except.map, eq_comm]

/-- Recovery runs if an item does not match, and if it matches without taking a token. -/
theorem orRecover_eq_ok {item : Production} {state last : ParseState} :
    orRecover item state = .ok last ↔
      item state = .error .mismatch ∧ last = Recovery.block.run state ∨
      (∃ next, item state = .ok next ∧ next.rest.length = state.rest.length ∧
        last = Recovery.block.run next) ∨
      item state = .ok last ∧ last.rest.length ≠ state.rest.length := by
  unfold orRecover
  cases item state with
  | error stop => cases stop <;> simp [eq_comm]
  | ok next =>
    by_cases hsame : next.rest.length = state.rest.length
    · simp only [hsame, if_true, Except.ok.injEq]
      constructor
      · rintro rfl
        exact .inr (.inl ⟨next, rfl, hsame, rfl⟩)
      · rintro (⟨hmismatch, -⟩ | ⟨_, rfl, -, rfl⟩ | ⟨rfl, hne⟩)
        · cases hmismatch
        · rfl
        · exact absurd hsame hne
    · simp only [hsame, if_false, Except.ok.injEq]
      constructor
      · rintro rfl
        exact .inr (.inr ⟨rfl, hsame⟩)
      · rintro (⟨hmismatch, -⟩ | ⟨_, rfl, hsame', -⟩ | ⟨rfl, -⟩)
        · cases hmismatch
        · exact absurd hsame' hsame
        · rfl

/-! ## Running loops -/

/-- One more turn of a loop that goes on while something is ahead. -/
theorem iterate_whileTurn_succ (look : List Lexeme → Bool) (body : Production) (fuel : Nat)
    (state : ParseState) :
    iterate (whileTurn look body) (fuel + 1) state =
      if look state.rest then (body state).bind (iterate (whileTurn look body) fuel)
      else .ok state := by
  rw [iterate]
  unfold whileTurn
  by_cases h : look state.rest = true
  · simp only [h, if_true]
    cases body state <;> rfl
  · simp [h]

/-- One more turn of a loop up to a closing brace. -/
theorem iterate_bracedTurn_succ (item : Production) (fuel : Nat) (state : ParseState) :
    iterate (bracedTurn item) (fuel + 1) state =
      if state.sees "\x7d" then .ok state.bump
      else if state.atEnd then .ok state.missing
      else (item state).bind (iterate (bracedTurn item) fuel) := by
  rw [iterate]
  unfold bracedTurn
  by_cases h : state.sees "\x7d" = true
  · simp [h]
  · by_cases hend : state.atEnd = true
    · simp [h, hend]
    · simp only [h, hend, if_false, Bool.false_eq_true]
      cases item state <;> rfl

/-- What every turn of a loop keeps is kept by the whole loop. -/
theorem iterate_whileTurn_keeps {look : List Lexeme → Bool} {body : Production}
    {I : ParseState → Prop}
    (hbody : ∀ {state next : ParseState}, look state.rest = true → body state = .ok next →
      I state → I next)
    {fuel : Nat} {state last : ParseState}
    (hrun : iterate (whileTurn look body) fuel state = .ok last) (hstate : I state) : I last := by
  induction fuel generalizing state with
  | zero => cases hrun
  | succ fuel ih =>
    rw [iterate_whileTurn_succ] at hrun
    split at hrun
    · rename_i hlook
      obtain ⟨next, hnext, hlast⟩ := seq_eq_ok.mp hrun
      exact ih hlast (hbody hlook hnext hstate)
    · exact Except.ok.inj hrun ▸ hstate

theorem whileAhead_keeps {look : List Lexeme → Bool} {body : Production} {I : ParseState → Prop}
    (hbody : ∀ state last, body state = .ok last → I state → I last) (state last : ParseState)
    (hrun : whileAhead look body state = .ok last) (hstate : I state) : I last :=
  iterate_whileTurn_keeps (fun _ => hbody _ _) hrun hstate

/-- What every item before a closing brace keeps holds where the items end: at the brace, or at
the end of the input. -/
theorem iterate_bracedTurn_keeps {item : Production} {I : ParseState → Prop}
    (hitem : ∀ {state next : ParseState}, state.sees "\x7d" = false → state.rest ≠ [] →
      item state = .ok next → I state → I next)
    {fuel : Nat} {state last : ParseState}
    (hrun : iterate (bracedTurn item) fuel state = .ok last) (hstate : I state) :
    ∃ between, I between ∧ (between.sees "\x7d" = true ∧ last = between.bump ∨
      between.rest = [] ∧ last = between.missing) := by
  induction fuel generalizing state with
  | zero => cases hrun
  | succ fuel ih =>
    rw [iterate_bracedTurn_succ] at hrun
    split at hrun
    · rename_i hsees
      exact ⟨state, hstate, .inl ⟨hsees, (Except.ok.inj hrun).symm⟩⟩
    · rename_i hsees
      split at hrun
      · rename_i hend
        exact ⟨state, hstate, .inr ⟨List.isEmpty_iff.mp hend, (Except.ok.inj hrun).symm⟩⟩
      · rename_i hend
        obtain ⟨next, hnext, hlast⟩ := seq_eq_ok.mp hrun
        have hne : state.rest ≠ [] := by simpa [ParseState.atEnd] using hend
        exact ih hlast (hitem (by simpa using hsees) hne hnext hstate)

/-- Braces open on a brace, keep what every item keeps and close on a brace or at the end of the
input. -/
theorem braced_keeps {item : Production} {I : ParseState → Prop}
    (hitem : ∀ {state next : ParseState}, state.sees "\x7d" = false → state.rest ≠ [] →
      item state = .ok next → I state → I next)
    {state last : ParseState} (hrun : braced item state = .ok last)
    (hopen : state.sees "\x7b" = true → I state.bump) :
    ∃ between, I between ∧ (between.sees "\x7d" = true ∧ last = between.bump ∨
      between.rest = [] ∧ last = between.missing) := by
  obtain ⟨inside, hbrace, hitems⟩ := seq_eq_ok.mp hrun
  obtain ⟨hsees, rfl⟩ := expect_eq_ok.mp hbrace
  exact iterate_bracedTurn_keeps hitem hitems (hopen hsees)

end Production

end Azsl
