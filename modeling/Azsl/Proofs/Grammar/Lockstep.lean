/-
Azsl.Proofs.Grammar.Lockstep — parses of alike inputs go side by side.

Two runs of the same combination that start in sync stay in sync, whatever comes behind the
alike stretches of their inputs: the brackets that are pending close before the stretches end, so
neither run looks behind them. Where nothing is pending, one run has to be known not to leave its
stretch. The main results are `Twin.lockstep` for combinations and `Ended.lockstep` for
declarations, which may take their stretch to its last token.
-/
import Azsl.Proofs.Grammar.Balance
import Azsl.Proofs.Grammar.Sync

namespace Azsl

/-! ## Outcomes -/

/-- What becomes of two runs side by side: they go on in sync or both do not match, unless one of
them runs out of steps. -/
inductive Matched (d e : Nat) (pending : List Closer) (after after' : List Lexeme) :
    Except Stop ParseState → Except Stop ParseState → Prop
  | ok {last last'} : Sync d e pending after after' last last' →
      Matched d e pending after after' (.ok last) (.ok last')
  | mismatch : Matched d e pending after after' (.error .mismatch) (.error .mismatch)
  | outOfFuel {outcome} : Matched d e pending after after' (.error .outOfFuel) outcome
  | outOfFuel' {outcome} : Matched d e pending after after' outcome (.error .outOfFuel)

namespace Matched

variable {d e : Nat} {between next : List Closer} {after after' : List Lexeme}
  {first first' : Except Stop ParseState}

theorem bind {second second' : Production} (h : Matched d e between after after' first first')
    (hsecond : ∀ {middle middle'}, first = .ok middle →
      Sync d e between after after' middle middle' →
      Matched d e next after after' (second middle) (second' middle')) :
    Matched d e next after after' (first.bind second) (first'.bind second') := by
  cases h with
  | ok hsync => exact hsecond rfl hsync
  | mismatch => exact .mismatch
  | outOfFuel => exact .outOfFuel
  | outOfFuel' => exact .outOfFuel'

theorem map {f f' : ParseState → ParseState} (h : Matched d e between after after' first first')
    (hf : ∀ {last last'}, first = .ok last → Sync d e between after after' last last' →
      Sync d e next after after' (f last) (f' last')) :
    Matched d e next after after' (first.map f) (first'.map f') := by
  cases h with
  | ok hsync => exact .ok (hf rfl hsync)
  | mismatch => exact .mismatch
  | outOfFuel => exact .outOfFuel
  | outOfFuel' => exact .outOfFuel'

variable {pending : List Closer} {state state' : ParseState} {body body' : Production}

/-- Nodes around what two runs build are alike. -/
theorem node (kind : NodeKind) (hsync : Sync d e pending after after' state state')
    (hlt : after.length < state.rest.length)
    (hbuilt : ∀ {inner}, body state.flush.opened = .ok inner → inner.built ≠ [])
    (h : Matched d e next after after' (body state.flush.opened) (body' state'.flush.opened)) :
    Matched d e next after after' (Production.node kind body state)
      (Production.node kind body' state') := by
  rw [Production.node_apply, Production.node_apply]
  exact h.map fun hrun hlast => hlast.close kind (hsync.flush hlt).built_eq (hbuilt hrun)

theorem inScope (hsync : Sync d e pending after after' state state')
    (hlt : after.length < state.rest.length)
    (h : Matched d e next after after' (body state.flush.opened) (body' state'.flush.opened)) :
    Matched d e next after after' (Production.inScope body state)
      (Production.inScope body' state') := by
  rw [Production.inScope_apply, Production.inScope_apply]
  refine h.map fun _ hlast => hlast.rebuilt rfl rfl ?_
  rw [List.map_append, List.map_append, hlast.built_eq, (hsync.flush hlt).built_eq]

theorem enclose (kind : NodeKind) (hbuilt : ∀ {inner}, body state = .ok inner → inner.built ≠ [])
    (h : Matched d e next after after' (body state) (body' state')) :
    Matched d e next after after' (Production.enclose kind body state)
      (Production.enclose kind body' state') := by
  rw [Production.enclose_apply, Production.enclose_apply]
  exact h.map fun hrun hlast => hlast.enclosed kind (hbuilt hrun)

end Matched

/-- A run stays inside its stretch: something is pending all the time, or it is known to leave a
token of the stretch. -/
def Inside (below : List Closer) (after : List Lexeme) (outcome : Except Stop ParseState) :
    Prop :=
  below ≠ [] ∨ ∃ last, outcome = .ok last ∧ after.length < last.rest.length

namespace Inside

variable {below : List Closer} {after : List Lexeme} {first : Except Stop ParseState}

theorem of_map {f : ParseState → ParseState} (h : Inside below after (first.map f))
    (hf : ∀ state, (f state).rest = state.rest) : Inside below after first := by
  refine h.imp id fun ⟨last, hrun, hlt⟩ => ?_
  cases first with
  | error stop => cases hrun
  | ok inner =>
    obtain rfl := Except.ok.inj hrun
    exact ⟨inner, rfl, hf inner ▸ hlt⟩

theorem of_bind {second : Production} (h : Inside below after (first.bind second))
    (hsecond : ∀ {middle last}, second middle = .ok last → last.Follows middle) :
    Inside below after first := by
  refine h.imp id fun ⟨last, hrun, hlt⟩ => ?_
  cases first with
  | error stop => cases hrun
  | ok middle =>
    have := (hsecond hrun).length_le
    exact ⟨middle, rfl, by omega⟩

/-- A run that stays inside starts inside. -/
theorem length_lt {d e : Nat} {pending : List Closer} {after' : List Lexeme}
    {body : Production} {state state' : ParseState} (h : Inside below after (body state))
    (hsync : Sync d e pending after after' state state') (hpending : below ≠ [] → pending ≠ [])
    (hbody : ∀ {last}, body state = .ok last → last.Follows state) :
    after.length < state.rest.length := by
  rcases h with hbelow | ⟨last, hrun, hlt⟩
  · exact hsync.length_lt (hpending hbelow)
  · have := (hbody hrun).length_le
    omega

end Inside

/-! ## Looking ahead -/

/-- Lookahead sees the same in both states. -/
theorem Steady.agree {α : Type} {known : List Lexeme → Prop} {look : List Lexeme → α}
    (hlook : Steady known look) {d e : Nat} {pending : List Closer} {after after' : List Lexeme}
    {state state' : ParseState} (hsync : Sync d e pending after after' state state')
    (hlt : after.length < state.rest.length) (hknown : known (Lexeme.bare state.rest)) :
    look state.rest = look state'.rest := by
  obtain ⟨first, others, first', others', hrest, hrest', -, hstretch, -⟩ := hsync.next_eq hlt
  have hbare := hstretch.bare
  rw [hrest] at hknown
  have hstays : look (Lexeme.bare (first :: others) ++ after)
      = look (Lexeme.bare (first' :: others') ++ after') :=
    hlook.stays hbare.alike hbare.bounded (List.cons_ne_nil _ _) hbare.sound hknown
  rw [hrest, hrest', ← hlook.bare, ← hlook.bare (first' :: others' ++ after')]
  exact hstays

theorem ParseState.sees_eq_of_tokens {state state' : ParseState}
    (h : Lexeme.tokens state.rest = Lexeme.tokens state'.rest) (text : String) :
    state.sees text = state'.sees text := by
  have htoken : ∀ input : List Lexeme,
      Lookahead.token? input 0 = (Lexeme.tokens input)[0]? := by
    intro input
    rw [Lookahead.token?, Lexeme.tokens, List.getElem?_map]
  rw [sees, sees, Lookahead.isAt, Lookahead.isAt, htoken, htoken, h]

/-! ## Loops -/

namespace Production

variable {d e : Nat} {below stack : List Closer} {after after' : List Lexeme}

theorem iterate_whileTurn_lockstep {look : List Lexeme → Bool} {body body' : Production}
    (hlook : Steady Unknown look) (hstack : below ≠ [] → stack ≠ [])
    (hfollows : ∀ {state next}, look state.rest = true → body state = .ok next →
      next.Follows state)
    (hbody : ∀ {state state'}, Sync d e stack after after' state state' →
      after.length < state.rest.length → look state.rest = true →
      Inside below after (body state) →
      Matched d e stack after after' (body state) (body' state'))
    {fuel fuel' : Nat} {state state' : ParseState}
    (hsync : Sync d e stack after after' state state') (hlt : after.length < state.rest.length)
    (hinside : Inside below after (iterate (whileTurn look body) fuel state)) :
    Matched d e stack after after' (iterate (whileTurn look body) fuel state)
      (iterate (whileTurn look body') fuel' state') := by
  have hloop : ∀ {fuel : Nat} {state last : ParseState},
      iterate (whileTurn look body) fuel state = .ok last → last.Follows state :=
    fun h => iterate_whileTurn_follows (fun hl hb => hfollows hl hb) h
  induction fuel generalizing fuel' state state' with
  | zero => exact .outOfFuel
  | succ fuel ih =>
    cases fuel' with
    | zero => exact .outOfFuel'
    | succ fuel' =>
      have hsame := hlook.agree hsync hlt trivial
      rw [iterate_whileTurn_succ] at hinside ⊢
      rw [iterate_whileTurn_succ, ← hsame]
      split_ifs at hinside ⊢ with hl
      · refine (hbody hsync hlt hl (hinside.of_bind hloop)).bind fun hrun hmiddle => ?_
        rw [hrun] at hinside
        exact ih hmiddle (hinside.length_lt hmiddle hstack hloop) hinside
      · exact .ok hsync

/-- Braces around items close inside the stretch. -/
theorem braced_lockstep {item item' : Production}
    (hitem : ∀ {state state'}, Sync d e (.brace :: stack) after after' state state' →
      state.sees "\x7d" = false → state.rest ≠ [] →
      Matched d e (.brace :: stack) after after' (item state) (item' state'))
    {state state' : ParseState} (hsync : Sync d e stack after after' state state')
    (hlt : after.length < state.rest.length) :
    Matched d e stack after after' (braced item state) (braced item' state') := by
  have hloop : ∀ {fuel fuel' : Nat} {state state' : ParseState},
      Sync d e (.brace :: stack) after after' state state' →
      Matched d e stack after after' (iterate (bracedTurn item) fuel state)
        (iterate (bracedTurn item') fuel' state') := by
    intro fuel fuel' state state' hsync
    induction fuel generalizing fuel' state state' with
    | zero => exact .outOfFuel
    | succ fuel ih =>
      cases fuel' with
      | zero => exact .outOfFuel'
      | succ fuel' =>
        have hlt := hsync.length_lt (by simp)
        rw [iterate_bracedTurn_succ, iterate_bracedTurn_succ, ← hsync.isAt_eq hlt]
        by_cases hsees : state.sees "\x7d" = true
        · rw [if_pos hsees, if_pos hsees]
          exact .ok (hsync.bumpAt hlt hsees (by simp [Role.ofText, Nesting.act]))
        · obtain ⟨first, others, first', others', hrest, hrest', -, -, -⟩ := hsync.next_eq hlt
          have hend : state.atEnd = false := by simp [ParseState.atEnd, hrest]
          have hend' : state'.atEnd = false := by simp [ParseState.atEnd, hrest']
          simp only [hsees, hend, hend', if_false, Bool.false_eq_true]
          exact (hitem hsync (by simpa using hsees) (by simp [hrest])).bind
            fun _ hmiddle => ih hmiddle
  unfold braced expect
  rw [seq_apply, seq_apply, ← hsync.isAt_eq hlt]
  by_cases hsees : state.sees "\x7b" = true
  · rw [if_pos hsees, if_pos hsees]
    exact hloop (hsync.bumpAt hlt hsees (by simp [Role.ofText, Nesting.act]))
  · rw [if_neg hsees, if_neg hsees]
    exact .mismatch

end Production

/-! ## Combinations -/

/-- The nonterminals of two grammars run side by side. -/
def Grammar.Lockstep (grammar grammar' : Grammar) (depth : Nat) : Prop :=
  ∀ (rule : Rule) {d e : Nat} {below : List Closer} {after after' : List Lexeme}
    {state state' : ParseState}, rule.mode.Allows below →
    Sync d e below after after' state state' → after.length < state.rest.length →
    Inside below after (grammar rule depth state) →
    Matched d e below after after' (grammar rule depth state) (grammar' rule depth state')

namespace Twin

variable {grammar grammar' : Grammar} {depth : Nat} {mode : Mode} {known : List Lexeme → Prop}
  {takes : Bool} {pending next : List Closer} {body body' : Production}
  {d e : Nat} {below : List Closer} {after after' : List Lexeme} {state state' : ParseState}

/-- A leaf of tokens stays inside the stretch, since only its last token may end it. -/
theorem lockstep_take {count : Nat} (kind : NodeKind) (htakes : Takes mode known count pending next)
    (hallows : mode.Allows below) (hsync : Sync d e (pending ++ below) after after' state state')
    (hlt : after.length < state.rest.length) (hknown : known (Lexeme.bare state.rest)) :
    Sync d e (next ++ below) after after' (state.bumpJoined count kind)
      (state'.bumpJoined count kind) := by
  obtain ⟨first, others, first', others', hrest, hrest', -, hstretch, hbuilt⟩ :=
    hsync.next_eq hlt
  have hbare := hstretch.bare
  rw [hrest, Lexeme.bare_append (List.cons_ne_nil _ _)] at hknown
  have hcount : count < (Lexeme.bare (first :: others)).length := by
    by_contra hge
    have hne : Lexeme.bare (first :: others) ≠ [] := List.cons_ne_nil _ _
    have hlast := List.getLast?_eq_some_getLast hne
    have hfinal := hbare.bounded.2 _ hlast
    have hmem := List.getLast_mem hne
    have htake : (Lexeme.bare (first :: others)).getLast hne
        ∈ (Lexeme.bare (first :: others) ++ after).take count := by
      rw [List.take_append, List.take_of_length_le (by omega)]
      exact List.mem_append_left _ hmem
    rw [htakes.goesOn _ hknown _ htake (hbare.sound _ hmem)] at hfinal
    cases hfinal
  have htake : (Lexeme.bare (first :: others) ++ after).take (count + 1)
      = (Lexeme.bare (first :: others)).take (count + 1) :=
    List.take_append_of_le_length hcount
  have hrun := htakes.nesting hknown
    (fun lexeme hmem => hbare.sound lexeme (List.mem_of_mem_take (htake ▸ hmem))) below hallows
  rw [htake] at hrun
  refine Sync.bumpJoined kind hrest hrest' hstretch hbuilt (by simpa using hcount) ?_
  simpa [Lexeme.bare, Lexeme.tokens] using hrun

/-- A string is one token. -/
theorem lockstep_string {stack : List Closer}
    (hsync : Sync d e stack after after' state state')
    (hlt : after.length < state.rest.length) :
    Matched d e stack after after' (Production.stringLiteral state)
      (Production.stringLiteral state') := by
  obtain ⟨first, others, first', others', hrest, hrest', hfirst, hstretch, -⟩ :=
    hsync.next_eq hlt
  have htoken := Lexeme.token_lift_eq hfirst
  obtain ⟨hkind, -⟩ := Token.lift_eq_iff.mp htoken
  simp only [Production.stringLiteral, Lookahead.token?, hrest, hrest', List.cons_append,
    List.getElem?_cons_zero, Option.map_some, ← hkind]
  split_ifs with hstring
  · have hplain : first.token.role = .plain := by
      refine Token.role_eq_plain_of_kind (hstretch.sound first List.mem_cons_self) ?_ ?_ <;>
        simp [hstring]
    have hrun : Nesting.run stack (Lexeme.tokens ((first :: others).take 1)) = some stack :=
      Nesting.run_plain (by simpa [Lexeme.tokens] using hplain)
    refine .ok (Sync.close .stringLiteral ⟨others, others', ?_, ?_, hstretch.drop hrun, ?_⟩
      (hsync.flush hlt).built_eq (by simp [Production.stringParts]))
    · simp [hrest, Lexeme.bare]
    · simp [hrest', Lexeme.bare]
    · rw [List.map_reverse, List.map_reverse, Production.stringParts_alike htoken]
  · exact .mismatch

theorem built_ne_nil (h : Twin grammar grammar' depth mode known true pending next body body')
    (hadvances : grammar.Advances depth) (hbuilds : grammar.Builds depth)
    (hknown : known (Lexeme.bare state.rest)) {last : ParseState} (hrun : body state = .ok last) :
    last.built ≠ [] :=
  h.grows hbuilds hknown hrun (.inr ((h.advances hadvances hknown hrun).2 rfl))

/-- Combinations run side by side inside a stretch. -/
theorem lockstep (h : Twin grammar grammar' depth mode known takes pending next body body')
    (hadvances : grammar.Advances depth) (hbuilds : grammar.Builds depth)
    (hcalls : grammar.Lockstep grammar' depth) (hallows : mode.Allows below)
    (hsync : Sync d e (pending ++ below) after after' state state')
    (hlt : after.length < state.rest.length) (hknown : known (Lexeme.bare state.rest))
    (hinside : Inside below after (body state)) :
    Matched d e (next ++ below) after after' (body state) (body' state') := by
  induction h generalizing below state state' with
  | skip => exact .ok hsync
  | fail => exact .mismatch
  | take _ htakes => exact .ok (lockstep_take _ htakes hallows hsync hlt hknown)
  | string => exact lockstep_string hsync hlt
  | @choose _ _ _ _ _ select select' hselect hselect' _ ih =>
    have hchosen := hselect.bare state.rest
    have hchosen' : select' (Lexeme.bare state.rest) = select' state'.rest :=
      (hselect'.bare _).trans (hselect'.agree hsync hlt hknown)
    have hmatched := ih (Lexeme.bare state.rest) hknown hallows hsync hlt rfl
      (hchosen.symm ▸ hinside)
    rw [hchosen, hchosen'] at hmatched
    exact hmatched
  | @orElse _ _ _ _ _ first first' _ _ hmode _ _ ih₁ ih₂ =>
    -- an alternative that fails has to fail on both sides, so something has to be pending
    have hbelow : ∀ {outcome}, Inside below after outcome := .inl (hallows.ne_nil hmode)
    have hfirst := ih₁ hallows hsync hlt hknown hbelow
    have hsecond := ih₂ hallows hsync hlt hknown hbelow
    unfold Production.orElse
    generalize first state = outcome at hfirst ⊢
    generalize first' state' = outcome' at hfirst ⊢
    cases hfirst with
    | ok hlast => exact .ok hlast
    | mismatch => exact hsecond
    | outOfFuel => exact .outOfFuel
    | outOfFuel' => exact .outOfFuel'
  | @seq _ _ _ _ _ _ between _ _ _ second _ htwin₁ htwin₂ _ ih₁ ih₂ =>
    have hsecond : ∀ {middle last}, second middle = .ok last → last.Follows middle :=
      fun hrun => (htwin₂.advances hadvances trivial hrun).1
    rw [Production.seq_apply] at hinside ⊢
    refine (ih₁ hallows hsync hlt hknown (hinside.of_bind hsecond)).bind fun hrun hmiddle => ?_
    rw [hrun] at hinside
    have hlt' := hinside.length_lt hmiddle
      (fun hbelow hnil => hbelow (List.append_eq_nil_iff.mp hnil).2) hsecond
    exact ih₂ hallows hmiddle hlt' trivial hinside
  | @node _ known _ _ kind body body' _ htwin ih =>
    have hopened : known (Lexeme.bare state.flush.opened.rest) := by simpa using hknown
    rw [Production.node_apply] at hinside
    exact .node kind hsync hlt (htwin.built_ne_nil hadvances hbuilds hopened) <|
      ih hallows (hsync.flush hlt).opened (by simpa using hlt) hopened
        (hinside.of_map fun _ => rfl)
  | inScope _ ih =>
    rw [Production.inScope_apply] at hinside
    exact .inScope hsync hlt <| ih hallows (hsync.flush hlt).opened (by simpa using hlt)
      (by simpa using hknown) (hinside.of_map fun _ => rfl)
  | enclose _ htwin ih =>
    rw [Production.enclose_apply] at hinside
    exact .enclose _ (htwin.built_ne_nil hadvances hbuilds hknown) <|
      ih hallows hsync hlt hknown (hinside.of_map fun _ => rfl)
  | @whileAhead _ _ _ _ look body body' hlook htwin _ ih =>
    refine Production.iterate_whileTurn_lockstep hlook
      (fun hbelow hnil => hbelow (List.append_eq_nil_iff.mp hnil).2)
      (fun hl hrun => (htwin.advances hadvances ((hlook.bare _).trans hl) hrun).1)
      (fun hsync' hlt' hl hinside' => ih hallows hsync' hlt' ((hlook.bare _).trans hl) hinside')
      hsync hlt hinside
  | @braced _ _ _ item item' htwin ih =>
    refine Production.braced_lockstep (fun hsync' hsees hne => ?_) hsync hlt
    exact ih rfl hsync' (hsync'.length_lt (by simp))
      (Lookahead.item_bare.mpr ⟨hne, hsees⟩)
      (.inl (List.cons_ne_nil _ _))
  | recover hk =>
    obtain ⟨below, rfl⟩ := hallows.eq_cons
    exact .ok (hsync.recovery ((Lookahead.isAt_bare _ _ _).symm.trans (hk _ hknown).2))
  | @orRecover _ _ item item' hk htwin ih =>
    obtain ⟨below, rfl⟩ := hallows.eq_cons
    have hsees : state.sees "\x7d" = false :=
      (Lookahead.isAt_bare _ _ _).symm.trans (hk _ hknown).2
    have hitem := ih hallows hsync hlt hknown (.inl (List.cons_ne_nil _ _))
    have hfollows : ∀ {next}, item state = .ok next → next.Follows state :=
      fun hrun => (htwin.advances hadvances hknown hrun).1
    unfold Production.orRecover
    generalize item state = outcome at hitem hfollows ⊢
    generalize item' state' = outcome' at hitem ⊢
    cases hitem with
    | @ok next next' hnext =>
      have hlength := hsync.length_add
      have hlength' := hnext.length_add
      refine .ok ?_
      by_cases hsame : next.rest.length = state.rest.length
      · rw [if_pos hsame, if_pos (by omega)]
        refine hnext.recovery ?_
        rwa [ParseState.sees_eq_of_tokens ((hfollows rfl).tokens_eq hsame)]
      · rw [if_neg hsame, if_neg (by omega)]
        exact hnext
    | mismatch => exact .ok (hsync.recovery hsees)
    | outOfFuel => exact .outOfFuel
    | outOfFuel' => exact .outOfFuel'
  | call rule => exact hcalls rule hallows hsync hlt hinside
  | weaken _ hle hk _ ih => exact ih (hallows.of_le hle) hsync hlt (hk _ hknown) hinside
  | @enter _ _ _ _ closer pending _ _ _ hallows' ih =>
    exact ih (hallows' _) hsync hlt hknown (.inl (List.cons_ne_nil _ _))

end Twin

/-- The grammar runs side by side with itself, however many calls inside one another are
allowed on either side. -/
theorem Grammar.upTo_lockstep (fuel fuel' depth : Nat) :
    (upTo fuel).Lockstep (upTo fuel') depth := by
  induction fuel generalizing fuel' depth with
  | zero => intro rule _ _ _ _ _ _ _ _ _ _ _; exact .outOfFuel
  | succ fuel ih =>
    intro rule d e below after after' state state' hallows hsync hlt hinside
    cases fuel' with
    | zero => exact .outOfFuel'
    | succ fuel' =>
      have hstep : Twin (upTo fuel) (upTo fuel') _ _ Unknown true [] [] _ _ := .step rule depth
      exact hstep.lockstep (upTo_advances fuel _) (upTo_builds fuel _) (ih fuel' _) hallows hsync
        hlt trivial hinside

/-! ## Declarations -/

namespace Ended

variable {grammar grammar' : Grammar} {depth : Nat} {mode : Mode} {base : List Closer}
  {known : List Lexeme → Prop} {body body' : Production}
  {d e : Nat} {after after' : List Lexeme} {state state' : ParseState}

theorem allows (h : Ended grammar grammar' depth mode base known body body') :
    mode.Allows base := by
  rcases h.mode_eq with ⟨rfl, rfl⟩ | ⟨rfl, rfl⟩
  · exact List.cons_ne_nil _ _
  · trivial

/-- A declaration on its own does not leave its stretch. -/
def Within (base : List Closer) (after : List Lexeme) (outcome : Except Stop ParseState) : Prop :=
  base ≠ [] ∨ ∃ last, outcome = .ok last ∧ after.length ≤ last.rest.length

theorem Within.of_map {outcome : Except Stop ParseState} {f : ParseState → ParseState}
    (h : Within base after (outcome.map f)) (hf : ∀ state, (f state).rest = state.rest) :
    Within base after outcome := by
  refine h.imp id fun ⟨last, hrun, hle⟩ => ?_
  cases outcome with
  | error stop => cases hrun
  | ok inner =>
    obtain rfl := Except.ok.inj hrun
    exact ⟨inner, rfl, hf inner ▸ hle⟩

/-- Declarations run side by side, also if they take the last token of their stretch. One that
ends on a brace has to be known not to go further. -/
theorem lockstep (h : Ended grammar grammar' depth mode base known body body')
    (hadvances : grammar.Advances depth) (hbuilds : grammar.Builds depth)
    (hcalls : grammar.Lockstep grammar' depth)
    (hblock : ∀ {state state' : ParseState}, Sync d e [] after after' state state' →
      after.length < state.rest.length → Matched d e [] after after' (grammar .block depth state)
        (grammar' .block depth state'))
    (hsync : Sync d e base after after' state state') (hlt : after.length < state.rest.length)
    (hknown : known (Lexeme.bare state.rest))
    (hinside : Within base after (body state)) :
    Matched d e [] after after' (body state) (body' state') := by
  induction h generalizing state state' with
  | semicolon =>
    unfold Production.expect
    rw [← hsync.isAt_eq hlt]
    by_cases hsees : state.sees ";" = true
    · rw [if_pos hsees, if_pos hsees]
      exact .ok (hsync.bumpAt hlt hsees (by simp [Role.ofText, Nesting.act]))
    · rw [if_neg hsees, if_neg hsees]
      exact .mismatch
  | braced hitem =>
    refine Production.braced_lockstep (fun hsync' hsees hne => ?_) hsync hlt
    exact hitem.lockstep hadvances hbuilds hcalls rfl hsync' (hsync'.length_lt (by simp))
      (Lookahead.item_bare.mpr ⟨hne, hsees⟩)
      (.inl (List.cons_ne_nil _ _))
  | fail => exact .mismatch
  | block => exact hblock hsync hlt
  | @seq _ base _ _ first _ second _ hfirst hsecond ih =>
    have htaken : ∀ {middle last}, second middle = .ok last →
        last.rest.length < middle.rest.length :=
      fun hrun => (hsecond.alone.advances hadvances trivial hrun).2 rfl
    rw [Production.seq_apply] at hinside ⊢
    have hinside₁ : Inside base after (first state) := by
      refine hinside.imp id fun hwhole => ?_
      obtain ⟨last, hrun, hle⟩ := hwhole
      cases hmiddle : first state with
      | error stop => rw [hmiddle] at hrun; cases hrun
      | ok middle =>
        rw [hmiddle] at hrun
        have := htaken hrun
        exact ⟨middle, rfl, by omega⟩
    refine (hfirst.lockstep hadvances hbuilds hcalls hsecond.allows hsync hlt hknown
      hinside₁).bind fun hrun hmiddle => ?_
    rw [hrun] at hinside hinside₁
    refine ih hmiddle ?_ trivial hinside
    rcases hinside₁ with hbase | ⟨_, hsame, hlt'⟩
    · exact hmiddle.length_lt hbase
    · exact Except.ok.inj hsame ▸ hlt'
  | @node _ _ known kind body _ hkind hbody ih =>
    have hopened : known (Lexeme.bare state.flush.opened.rest) := by simpa using hknown
    rw [Production.node_apply] at hinside
    exact .node kind hsync hlt (hbody.alone.built_ne_nil hadvances hbuilds hopened) <|
      ih (hsync.flush hlt).opened (by simpa using hlt) hopened (hinside.of_map fun _ => rfl)
  | inScope _ ih =>
    rw [Production.inScope_apply] at hinside
    exact .inScope hsync hlt <| ih (hsync.flush hlt).opened (by simpa using hlt)
      (by simpa using hknown) (hinside.of_map fun _ => rfl)
  | enclose hkind hbody ih =>
    rw [Production.enclose_apply] at hinside
    exact .enclose _ (hbody.alone.built_ne_nil hadvances hbuilds hknown) <|
      ih hsync hlt hknown (hinside.of_map fun _ => rfl)
  | @ifAhead _ _ _ look _ _ _ _ hlook _ _ ihyes ihno =>
    have hbare := hlook.bare state.rest
    unfold Production.ifAhead at hinside ⊢
    rw [← hlook.agree hsync hlt hknown]
    by_cases hl : look state.rest = true
    · rw [if_pos hl] at hinside
      rw [if_pos hl, if_pos hl]
      exact ihyes hsync hlt ⟨hknown, hbare.trans hl⟩ hinside
    · rw [if_neg hl] at hinside
      rw [if_neg hl, if_neg hl]
      exact ihno hsync hlt ⟨hknown, hbare.trans (by simpa using hl)⟩ hinside

end Ended

end Azsl
