/-
Azsl.Proofs.Grammar.Progress — productions move forward, and none runs out of steps.

What a production leaves of the input is the end of what it was given, and a production that
takes a token leaves less. Hence every turn of a loop shortens the input, and the bound on the
number of turns is never met.
-/
import Azsl.Proofs.Grammar.State
import Azsl.Proofs.Grammar.Lookahead

namespace Azsl

/-! ## What is left of the input -/

/-- A state has come from another: the tokens it has left are the last ones of the other's, and
unless there are none, the trivia behind them is still to come. -/
structure ParseState.Follows (later earlier : ParseState) : Prop where
  tokens : Lexeme.tokens later.rest <:+ Lexeme.tokens earlier.rest
  trailing : later.rest ≠ [] → later.trailing = earlier.trailing
  textEnd : later.textEnd = earlier.textEnd

namespace ParseState.Follows

variable {first second third : ParseState}

theorem refl (state : ParseState) : state.Follows state :=
  ⟨List.suffix_refl _, fun _ => rfl, rfl⟩

theorem length_le (h : second.Follows first) : second.rest.length ≤ first.rest.length := by
  simpa [Lexeme.tokens] using List.IsSuffix.length_le h.tokens

theorem ne_nil (h : second.Follows first) (hne : second.rest ≠ []) : first.rest ≠ [] := by
  have hpos := List.length_pos_iff.mpr hne
  have hle := h.length_le
  exact List.length_pos_iff.mp (by omega)

theorem trans (h : third.Follows second) (h' : second.Follows first) : third.Follows first where
  tokens := h.tokens.trans h'.tokens
  trailing hne := (h.trailing hne).trans (h'.trailing (h.ne_nil hne))
  textEnd := h.textEnd.trans h'.textEnd

/-- What is left is the same if it is as much. -/
theorem tokens_eq (h : second.Follows first) (hl : second.rest.length = first.rest.length) :
    Lexeme.tokens second.rest = Lexeme.tokens first.rest :=
  List.IsSuffix.eq_of_length h.tokens (by simpa [Lexeme.tokens] using hl)

/-- Only what is built may change. -/
theorem rebuilt {other : ParseState} (h : second.Follows first) (hrest : other.rest = second.rest)
    (htrailing : other.trailing = second.trailing) (hend : other.textEnd = second.textEnd) :
    other.Follows first := by
  refine ⟨hrest ▸ h.tokens, fun hne => ?_, hend.trans h.textEnd⟩
  rw [htrailing]
  exact h.trailing (hrest ▸ hne)

end ParseState.Follows

namespace ParseState

theorem flush_follows (state : ParseState) : state.flush.Follows state := by
  refine ⟨?_, fun hne => ?_, flush_textEnd state⟩
  · simp only [flush_rest, Lexeme.tokens_bare, List.suffix_refl]
  · cases h : state.rest with
    | nil => simp [h, Lexeme.bare] at hne
    | cons first others => rw [flush_cons h]

theorem flush_opened_follows (state : ParseState) : state.flush.opened.Follows state :=
  state.flush_follows.rebuilt rfl rfl rfl

theorem missing_follows (state : ParseState) : state.missing.Follows state :=
  state.flush_follows.rebuilt rfl rfl rfl

theorem bump_follows (state : ParseState) : state.bump.Follows state := by
  cases h : state.rest with
  | nil => rw [bump_nil h]; exact flush_follows state
  | cons first others =>
    rw [bump_cons h]
    exact ⟨by simp [Lexeme.tokens, h], fun _ => rfl, rfl⟩

theorem bumpMany_follows (count : Nat) (state : ParseState) :
    (bumpMany count state).Follows state := by
  induction count generalizing state with
  | zero => exact .refl state
  | succ count ih => exact (ih state.bump).trans state.bump_follows

theorem tokens_bump (state : ParseState) :
    Lexeme.tokens state.bump.rest = (Lexeme.tokens state.rest).drop 1 := by
  cases h : state.rest with
  | nil => rw [bump_nil h, flush_rest, h]; rfl
  | cons first others => rw [bump_cons h]; rfl

theorem tokens_bumpMany (count : Nat) (state : ParseState) :
    Lexeme.tokens (bumpMany count state).rest = (Lexeme.tokens state.rest).drop count := by
  induction count generalizing state with
  | zero => rfl
  | succ count ih => rw [bumpMany, ih, tokens_bump, List.drop_drop, Nat.add_comm]

end ParseState

namespace Recovery

theorem extent_pos (mode : Recovery) {input : List Lexeme} (h : input ≠ []) :
    0 < mode.extent input := by
  cases input with
  | nil => exact absurd rfl h
  | cons first others =>
    rw [extent]
    split <;> omega

theorem tokens_run (mode : Recovery) (state : ParseState) :
    Lexeme.tokens (mode.run state).rest =
      (Lexeme.tokens state.rest).drop (mode.extent (Lexeme.bare state.rest)) := by
  simp [run, ParseState.tokens_bumpMany]

theorem run_follows (mode : Recovery) (state : ParseState) : (mode.run state).Follows state :=
  ((ParseState.bumpMany_follows _ _).trans state.flush_opened_follows).rebuilt rfl rfl rfl

theorem run_length_lt (mode : Recovery) {state : ParseState} (h : state.rest ≠ []) :
    (mode.run state).rest.length < state.rest.length := by
  have hlen := congrArg List.length (tokens_run mode state)
  have hpos := extent_pos mode (mt Lexeme.bare_eq_nil.mp h)
  have hrest : 0 < state.rest.length := List.length_pos_iff.mpr h
  simp only [Lexeme.tokens, List.length_map, List.length_drop] at hlen
  omega

end Recovery

/-! ## Loops -/

namespace Production

/-- A loop moves forward if its body does. -/
theorem iterate_whileTurn_follows {look : List Lexeme → Bool} {body : Production}
    (hbody : ∀ {state next : ParseState}, look state.rest = true → body state = .ok next →
      next.Follows state) {fuel : Nat} {state last : ParseState}
    (h : iterate (whileTurn look body) fuel state = .ok last) : last.Follows state :=
  iterate_whileTurn_keeps (I := (·.Follows state))
    (fun hlook hnext hfollows => (hbody hlook hnext).trans hfollows) h (.refl state)

/-- A loop ends within its bound if every turn takes a token and none runs out of steps. -/
theorem iterate_whileTurn_ne_outOfFuel {look : List Lexeme → Bool} {body : Production}
    {state : ParseState} {fuel : Nat}
    (hbody : ∀ {here next : ParseState}, look here.rest = true → body here = .ok next →
      next.rest.length < here.rest.length)
    (hfuel : ∀ {here : ParseState}, look here.rest = true →
      here.rest.length ≤ state.rest.length → body here ≠ .error .outOfFuel)
    (hlt : state.rest.length < fuel) :
    iterate (whileTurn look body) fuel state ≠ .error .outOfFuel := by
  induction fuel generalizing state with
  | zero => omega
  | succ fuel ih =>
    rw [iterate_whileTurn_succ]
    split
    · rename_i hlook
      cases hnext : body state with
      | error stop =>
        have := hfuel hlook (Nat.le_refl _)
        rw [hnext] at this
        exact this
      | ok next =>
        have hshort := hbody hlook hnext
        exact ih (fun hl hle => hfuel hl (by omega)) (by omega)
    · simp

theorem iterate_bracedTurn_ne_outOfFuel {item : Production} {state : ParseState} {fuel : Nat}
    (hitem : ∀ {here next : ParseState}, here.sees "\x7d" = false → here.rest ≠ [] →
      item here = .ok next → next.rest.length < here.rest.length)
    (hfuel : ∀ {here : ParseState}, here.sees "\x7d" = false → here.rest ≠ [] →
      here.rest.length ≤ state.rest.length → item here ≠ .error .outOfFuel)
    (hlt : state.rest.length < fuel) :
    iterate (bracedTurn item) fuel state ≠ .error .outOfFuel := by
  induction fuel generalizing state with
  | zero => omega
  | succ fuel ih =>
    rw [iterate_bracedTurn_succ]
    split
    · simp
    · rename_i hsees
      have hs : state.sees "\x7d" = false := by simpa using hsees
      split
      · simp
      · rename_i hend
        have hne : state.rest ≠ [] := by simpa [ParseState.atEnd] using hend
        cases hnext : item state with
        | error stop =>
          have := hfuel hs hne (Nat.le_refl _)
          rw [hnext] at this
          exact this
        | ok next =>
          have hshort := hitem hs hne hnext
          exact ih (fun hl hr hle => hfuel hl hr (by omega)) (by omega)

end Production

/-! ## Combinations -/

/-- Every nonterminal takes a token. -/
def Grammar.Advances (grammar : Grammar) (depth : Nat) : Prop :=
  ∀ (rule : Rule) {state last : ParseState}, grammar rule depth state = .ok last →
    last.Follows state ∧ last.rest.length < state.rest.length

namespace Twin

variable {grammar grammar' : Grammar} {depth : Nat} {mode : Mode} {known : List Lexeme → Prop}
  {takes : Bool} {pending next : List Closer} {body body' : Production}

/-- A combination moves forward, and takes a token if it says so. -/
theorem advances (h : Twin grammar grammar' depth mode known takes pending next body body')
    (hcalls : grammar.Advances depth) {state last : ParseState}
    (hknown : known (Lexeme.bare state.rest)) (hrun : body state = .ok last) :
    last.Follows state ∧ (takes = true → last.rest.length < state.rest.length) := by
  induction h generalizing state last with
  | skip =>
    obtain rfl := Except.ok.inj hrun
    exact ⟨.refl _, by simp⟩
  | fail => simp [Production.fail] at hrun
  | take _ htakes =>
    obtain ⟨first, more, others, hrest, hcount, -⟩ :=
      ParseState.exists_taken (htakes.enough hknown)
    obtain rfl := Except.ok.inj hrun
    rw [ParseState.bumpJoined_append _ hrest hcount]
    refine ⟨⟨?_, fun _ => rfl, rfl⟩, fun _ => ?_⟩
    · rw [hrest, Lexeme.tokens, Lexeme.tokens, List.map_append]
      exact List.suffix_append _ _
    · show others.length < state.rest.length
      rw [hrest, List.length_append, List.length_cons]
      omega
  | string =>
    obtain ⟨first, others, hrest, -, rfl⟩ := Production.stringLiteral_eq_ok.mp hrun
    have hflush := state.flush_follows
    refine ⟨⟨?_, fun _ => hflush.trailing (by simp [hrest, Lexeme.bare]), hflush.textEnd⟩, ?_⟩
    · simp [Lexeme.tokens, hrest]
    · simp [hrest]
  | @choose mode known takes pending next select select' hselect _ _ ih =>
    unfold Production.choose at hrun
    rw [← hselect.bare] at hrun
    exact ih _ hknown rfl hrun
  | orElse _ _ _ ih₁ ih₂ =>
    rcases Production.orElse_eq_ok.mp hrun with hfirst | ⟨-, hsecond⟩
    · exact ih₁ hknown hfirst
    · exact ih₂ hknown hsecond
  | seq _ _ htakes ih₁ ih₂ =>
    obtain ⟨between, hfirst, hsecond⟩ := Production.seq_eq_ok.mp hrun
    obtain ⟨hf₁, ht₁⟩ := ih₁ hknown hfirst
    obtain ⟨hf₂, ht₂⟩ := ih₂ trivial hsecond
    refine ⟨hf₂.trans hf₁, fun ht => ?_⟩
    have hle₁ := hf₁.length_le
    have hle₂ := hf₂.length_le
    rcases htakes ht with h₁ | h₂
    · have := ht₁ h₁
      omega
    · have := ht₂ h₂
      omega
  | node _ _ ih =>
    obtain ⟨inner, hinner, rfl⟩ := Production.node_eq_ok.mp hrun
    obtain ⟨hf, ht⟩ := ih (by simpa using hknown) hinner
    exact ⟨(hf.trans state.flush_opened_follows).rebuilt rfl rfl rfl, by simpa using ht⟩
  | inScope _ ih =>
    obtain ⟨inner, hinner, rfl⟩ := Production.inScope_eq_ok.mp hrun
    obtain ⟨hf, ht⟩ := ih (by simpa using hknown) hinner
    exact ⟨(hf.trans state.flush_opened_follows).rebuilt rfl rfl rfl, by simpa using ht⟩
  | enclose _ _ ih =>
    obtain ⟨inner, hinner, rfl⟩ := Production.enclose_eq_ok.mp hrun
    obtain ⟨hf, ht⟩ := ih hknown hinner
    exact ⟨hf.rebuilt rfl rfl rfl, ht⟩
  | @whileAhead mode known takes pending look body body' hlook _ htakes ih =>
    have hstep : ∀ {state last : ParseState}, look state.rest = true → body state = .ok last →
        last.Follows state ∧ last.rest.length < state.rest.length := by
      intro state last hl hbody
      obtain ⟨hf, ht⟩ := ih (by show look (Lexeme.bare _) = true; rw [hlook.bare]; exact hl) hbody
      exact ⟨hf, ht rfl⟩
    refine ⟨Production.iterate_whileTurn_follows (fun hl hb => (hstep hl hb).1) hrun,
      fun ht => ?_⟩
    -- what is known about the input lets the loop turn at least once
    have hl : look state.rest = true := by
      rw [← hlook.bare]
      exact htakes ht _ hknown
    have hturn : ((body state).bind
        (Production.iterate (Production.whileTurn look body) state.rest.length)) = .ok last := by
      have := hrun
      rw [Production.whileAhead, Production.loop, Production.iterate_whileTurn_succ,
        if_pos hl] at this
      exact this
    obtain ⟨between, hfirst, hrest⟩ := Production.seq_eq_ok.mp hturn
    have hfollows := Production.iterate_whileTurn_follows (fun hl hb => (hstep hl hb).1) hrest
    have hlt := (hstep hl hfirst).2
    have hle := hfollows.length_le
    omega
  | braced _ ih =>
    obtain ⟨between, ⟨hne, hbetween⟩, hlast⟩ := Production.braced_keeps
      (I := fun here => state.rest ≠ [] ∧ here.Follows state.bump)
      (fun hs hr hi hhere =>
        ⟨hhere.1, (ih (Lookahead.item_bare.mpr ⟨hr, hs⟩) hi).1.trans hhere.2⟩)
      hrun fun hopen => by
        obtain ⟨first, others, hrest, -⟩ := ParseState.sees_eq_true.mp hopen
        exact ⟨hrest ▸ List.cons_ne_nil _ _, .refl _⟩
    have hfollows : last.Follows state.bump := by
      rcases hlast with ⟨-, rfl⟩ | ⟨-, rfl⟩
      · exact between.bump_follows.trans hbetween
      · exact between.missing_follows.trans hbetween
    refine ⟨hfollows.trans state.bump_follows, fun _ => ?_⟩
    have hle := hfollows.length_le
    have hbump := congrArg List.length state.tokens_bump
    have hpos : 0 < state.rest.length := List.length_pos_iff.mpr hne
    simp only [Lexeme.tokens, List.length_map, List.length_drop] at hbump
    omega
  | recover hk =>
    obtain rfl := Except.ok.inj hrun
    have hne := (Lookahead.item_bare.mp (hk _ hknown)).1
    exact ⟨Recovery.run_follows _ _, fun _ => Recovery.run_length_lt _ hne⟩
  | orRecover hk _ ih =>
    have hne := (Lookahead.item_bare.mp (hk _ hknown)).1
    rcases Production.orRecover_eq_ok.mp hrun with
      ⟨-, rfl⟩ | ⟨next, hnext, hsame, rfl⟩ | ⟨htaken, hless⟩
    · exact ⟨Recovery.run_follows _ _, fun _ => Recovery.run_length_lt _ hne⟩
    · -- nothing was taken, so there is still a token for recovery to take
      have hpos := List.length_pos_iff.mpr hne
      have hlt := Recovery.run_length_lt .block (List.length_pos_iff.mp (hsame ▸ hpos))
      exact ⟨(Recovery.run_follows _ _).trans (ih hknown hnext).1, fun _ => by omega⟩
    · have hf := (ih hknown htaken).1
      have hle := hf.length_le
      exact ⟨hf, fun _ => by omega⟩
  | call rule =>
    obtain ⟨hf, hlt⟩ := hcalls rule hrun
    exact ⟨hf, fun _ => hlt⟩
  | weaken _ _ hk ht ih =>
    obtain ⟨hf, hlt⟩ := ih (hk _ hknown) hrun
    exact ⟨hf, fun htakes => hlt (ht htakes)⟩
  | enter _ _ ih => exact ih hknown hrun

end Twin

/-! ## Nodes that are built -/

/-- Whatever takes a token builds a node, and nothing built is lost. -/
def ParseState.Grows (state last : ParseState) : Prop :=
  state.built ≠ [] ∨ last.rest.length < state.rest.length → last.built ≠ []

namespace ParseState

theorem Grows.refl (state : ParseState) : Grows state state := by
  rintro (h | h)
  · exact h
  · omega

theorem Grows.trans {state middle last : ParseState} (h : Grows state middle)
    (h' : Grows middle last) : Grows state last := by
  intro hstate
  by_cases hlt : middle.rest.length < state.rest.length
  · exact h' (.inl (h (.inr hlt)))
  · rcases hstate with hbuilt | hlast
    · exact h' (.inl (h (.inl hbuilt)))
    · exact h' (.inr (by omega))

theorem flush_built_ne_nil {state : ParseState} (h : state.built ≠ []) :
    state.flush.built ≠ [] := by
  cases hrest : state.rest with
  | nil => rw [flush_nil hrest]; simp [h]
  | cons first others => rw [flush_cons hrest]; simp [h]

theorem bump_grows (state : ParseState) : Grows state state.bump := by
  rintro (hbuilt | hlt)
  · cases hrest : state.rest with
    | nil => rw [bump_nil hrest]; exact flush_built_ne_nil hbuilt
    | cons first others => rw [bump_cons hrest]; simp
  · cases hrest : state.rest with
    | nil => simp [hrest] at hlt
    | cons first others => rw [bump_cons hrest]; simp

theorem bumpMany_grows (count : Nat) (state : ParseState) : Grows state (bumpMany count state) := by
  induction count generalizing state with
  | zero => exact .refl state
  | succ count ih => exact state.bump_grows.trans (ih state.bump)

end ParseState

/-- Every nonterminal builds a node. -/
def Grammar.Builds (grammar : Grammar) (depth : Nat) : Prop :=
  ∀ (rule : Rule) {state last : ParseState}, grammar rule depth state = .ok last →
    state.Grows last

namespace Twin

open ParseState

variable {grammar grammar' : Grammar} {depth : Nat} {mode : Mode} {known : List Lexeme → Prop}
  {takes : Bool} {pending next : List Closer} {body body' : Production}

/-- A combination that takes a token builds a node. -/
theorem grows (h : Twin grammar grammar' depth mode known takes pending next body body')
    (hcalls : grammar.Builds depth) {state last : ParseState}
    (hknown : known (Lexeme.bare state.rest)) (hrun : body state = .ok last) :
    Grows state last := by
  induction h generalizing state last with
  | skip => exact Except.ok.inj hrun ▸ .refl state
  | fail => simp [Production.fail] at hrun
  | take _ htakes =>
    obtain ⟨first, more, others, hrest, hcount, -⟩ := exists_taken (htakes.enough hknown)
    obtain rfl := Except.ok.inj hrun
    rw [bumpJoined_append _ hrest hcount]
    exact fun _ => List.cons_ne_nil _ _
  | string =>
    obtain ⟨_, _, -, -, rfl⟩ := Production.stringLiteral_eq_ok.mp hrun
    exact fun _ => List.cons_ne_nil _ _
  | @choose _ _ _ _ _ select _ hselect _ _ ih =>
    have hchosen : select state.rest state = .ok last := hrun
    rw [← hselect.bare] at hchosen
    exact ih _ hknown rfl hchosen
  | orElse _ _ _ ih₁ ih₂ =>
    rcases Production.orElse_eq_ok.mp hrun with hfirst | ⟨-, hsecond⟩
    · exact ih₁ hknown hfirst
    · exact ih₂ hknown hsecond
  | seq _ _ _ ih₁ ih₂ =>
    obtain ⟨between, hfirst, hsecond⟩ := Production.seq_eq_ok.mp hrun
    exact (ih₁ hknown hfirst).trans (ih₂ trivial hsecond)
  | node _ _ _ =>
    obtain ⟨_, -, rfl⟩ := Production.node_eq_ok.mp hrun
    exact fun _ => List.cons_ne_nil _ _
  | inScope _ ih =>
    obtain ⟨inner, hinner, rfl⟩ := Production.inScope_eq_ok.mp hrun
    rintro (hbuilt | hlt)
    · exact fun hnil => flush_built_ne_nil hbuilt (List.append_eq_nil_iff.mp hnil).2
    · have hinside := ih (by simpa using hknown) hinner (.inr (by simpa using hlt))
      exact fun hnil => hinside (List.append_eq_nil_iff.mp hnil).1
  | enclose _ _ _ =>
    obtain ⟨_, -, rfl⟩ := Production.enclose_eq_ok.mp hrun
    exact fun _ => List.cons_ne_nil _ _
  | whileAhead hlook _ _ ih =>
    exact Production.iterate_whileTurn_keeps (I := Grows state)
      (fun hl hbody hgrows => hgrows.trans (ih ((hlook.bare _).trans hl) hbody)) hrun (.refl state)
  | braced _ ih =>
    obtain ⟨between, hgrows, ⟨-, rfl⟩ | ⟨-, rfl⟩⟩ := Production.braced_keeps (I := Grows state)
      (fun hs hr hi hgrows => hgrows.trans (ih (Lookahead.item_bare.mpr ⟨hr, hs⟩) hi)) hrun
      fun _ => state.bump_grows
    · exact hgrows.trans between.bump_grows
    · exact fun _ => List.cons_ne_nil _ _
  | recover => exact Except.ok.inj hrun ▸ fun _ => List.cons_ne_nil _ _
  | orRecover _ _ ih =>
    rcases Production.orRecover_eq_ok.mp hrun with ⟨-, rfl⟩ | ⟨next, -, -, rfl⟩ | ⟨htaken, -⟩
    · exact fun _ => List.cons_ne_nil _ _
    · exact fun _ => List.cons_ne_nil _ _
    · exact ih hknown htaken
  | call rule => exact hcalls rule hrun
  | weaken _ _ hk _ ih => exact ih (hk _ hknown) hrun
  | enter _ _ ih => exact ih hknown hrun

end Twin

end Azsl
