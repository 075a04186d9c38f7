/-
Azsl.Proofs.Grammar.Balance — what is parsed without an error leaves the brackets as promised.

`Twin` promises what a combination does to the stack of open brackets. Errors aside, the tokens
that a production takes do just that. In particular a declaration without an error closes every
bracket it opens, and the token it ends on is the one that closes the declaration.
-/
import Azsl.Proofs.Grammar.Adequacy

namespace Azsl

namespace ParseState

/-- No node built since the innermost one was opened has an error in it. -/
def Clean (state : ParseState) : Prop :=
  ∀ node ∈ state.built, node.hasError = false

theorem Clean.of_append {state last : ParseState} {more : List Node} (h : last.Clean)
    (hbuilt : last.built = more ++ state.built) : state.Clean := by
  intro node hmem
  exact h node (hbuilt ▸ List.mem_append_right _ hmem)

theorem Clean.of_flush {state : ParseState} (h : state.flush.Clean) : state.Clean := by
  cases hrest : state.rest with
  | nil => exact h.of_append (by rw [flush_nil hrest])
  | cons first others => exact h.of_append (by rw [flush_cons hrest])

theorem hasError_ofChildren (kind : NodeKind) (children : List Node) :
    (Node.ofChildren kind children).hasError = (kind == .error || children.any Node.hasError) :=
  rfl

/-- A node without an error has only children without one. -/
theorem clean_of_hasError_ofChildren {kind : NodeKind} {state : ParseState}
    (h : (Node.ofChildren kind state.built.reverse).hasError = false) : state.Clean := by
  rw [hasError_ofChildren, Bool.or_eq_false_iff, List.any_eq_false] at h
  intro node hmem
  simpa using h.2 node (List.mem_reverse.mpr hmem)

theorem Clean.of_close {outer inner : ParseState} {kind : NodeKind}
    (h : (outer.close kind inner).Clean) : outer.Clean ∧ inner.Clean :=
  ⟨fun node hmem => h node (List.mem_cons_of_mem _ hmem),
    clean_of_hasError_ofChildren (h _ List.mem_cons_self)⟩

theorem Clean.kind_of_close {outer inner : ParseState} {kind : NodeKind}
    (h : (outer.close kind inner).Clean) : kind ≠ .error := by
  rintro rfl
  have := h _ List.mem_cons_self
  simp [hasError_ofChildren] at this

/-- A closing token that is missing is an error. -/
theorem not_clean_missing (state : ParseState) : ¬ state.missing.Clean := by
  intro h
  have := h _ List.mem_cons_self
  simp [Node.leaf, Node.build, Node.hasError, Node.label] at this

/-! ## What is done to the stack -/

/-- The tokens taken between two states turn one stack into another. -/
def Balances (mode : Mode) (pending next : List Closer) (state last : ParseState) : Prop :=
  ∃ taken, Lexeme.tokens state.rest = taken ++ Lexeme.tokens last.rest ∧
    ∀ below, mode.Allows below → Nesting.run (pending ++ below) taken = some (next ++ below)

/-- If no error is built, none was built before, and the stack is as promised. -/
def Tidy (mode : Mode) (pending next : List Closer) (state last : ParseState) : Prop :=
  last.Clean → state.Clean ∧ Balances mode pending next state last

namespace Balances

variable {mode mode' : Mode} {pending between next : List Closer}
  {state middle last : ParseState}

theorem refl (mode : Mode) (pending : List Closer) (state : ParseState) :
    Balances mode pending pending state state :=
  ⟨[], rfl, fun _ _ => rfl⟩

theorem trans (h : Balances mode pending between state middle)
    (h' : Balances mode between next middle last) : Balances mode pending next state last := by
  obtain ⟨taken, htokens, hrun⟩ := h
  obtain ⟨taken', htokens', hrun'⟩ := h'
  refine ⟨taken ++ taken', by rw [htokens, htokens', List.append_assoc], fun below hbelow => ?_⟩
  rw [Nesting.run_append_of_eq_some (hrun below hbelow)]
  exact hrun' below hbelow

/-- The states may be replaced by others with the same tokens left. -/
theorem of_tokens {state' last' : ParseState} (h : Balances mode pending next state last)
    (hstate : Lexeme.tokens state'.rest = Lexeme.tokens state.rest)
    (hlast : Lexeme.tokens last'.rest = Lexeme.tokens last.rest) :
    Balances mode pending next state' last' := by
  obtain ⟨taken, htokens, hrun⟩ := h
  exact ⟨taken, by rw [hstate, hlast, htokens], hrun⟩

theorem weaken (h : Balances mode pending next state last) (hle : mode.le mode' = true) :
    Balances mode' pending next state last := by
  obtain ⟨taken, htokens, hrun⟩ := h
  exact ⟨taken, htokens, fun below hbelow => hrun below (hbelow.of_le hle)⟩

theorem enter {closer : Closer} (h : Balances mode' [] [] state last)
    (hallows : ∀ below, mode'.Allows (closer :: below)) :
    Balances mode (closer :: pending) (closer :: pending) state last := by
  obtain ⟨taken, htokens, hrun⟩ := h
  exact ⟨taken, htokens, fun below _ => hrun _ (hallows (pending ++ below))⟩

/-- Taking a token that is ahead. -/
theorem bump {text : String} (hsees : state.sees text = true)
    (hacts : Acts mode (.ofText text) pending next) :
    Balances mode pending next state state.bump := by
  obtain ⟨first, others, hrest, his⟩ := sees_eq_true.mp hsees
  refine ⟨[first.token], by simp [bump_cons hrest, hrest, Lexeme.tokens], fun below hbelow => ?_⟩
  rw [Nesting.run_cons, Nesting.step, Token.role_of_is his, hacts below hbelow]
  rfl

end Balances

theorem Clean.of_bump {state : ParseState} (h : state.bump.Clean) : state.Clean := by
  cases hrest : state.rest with
  | nil =>
    rw [bump_nil hrest] at h
    exact h.of_flush
  | cons first others =>
    rw [bump_cons hrest] at h
    exact fun node hmem => h node (List.mem_cons_of_mem _ (List.mem_append_right _ hmem))

namespace Tidy

variable {mode mode' : Mode} {pending between next : List Closer}
  {state middle last : ParseState}

theorem refl (mode : Mode) (pending : List Closer) (state : ParseState) :
    Tidy mode pending pending state state :=
  fun h => ⟨h, .refl mode pending state⟩

theorem trans (h : Tidy mode pending between state middle)
    (h' : Tidy mode between next middle last) : Tidy mode pending next state last := by
  intro hclean
  obtain ⟨hmiddle, hsecond⟩ := h' hclean
  obtain ⟨hstate, hfirst⟩ := h hmiddle
  exact ⟨hstate, hfirst.trans hsecond⟩

/-- An error node is an error. -/
theorem recovery (recovery : Recovery) (state : ParseState) :
    Tidy mode pending next state (recovery.run state) :=
  fun h => absurd rfl h.kind_of_close

end Tidy

end ParseState

theorem SoundInput.of_follows {state last : ParseState} (h : SoundInput state.rest)
    (hfollows : last.Follows state) : SoundInput last.rest := by
  intro lexeme hmem
  obtain ⟨other, hother, htoken⟩ :=
    List.mem_map.mp (List.IsSuffix.mem (List.mem_map_of_mem hmem) hfollows.tokens)
  exact htoken ▸ h other hother

theorem SoundInput.bare {input : List Lexeme} (h : SoundInput input) :
    SoundInput (Lexeme.bare input) := by
  cases input with
  | nil => exact h
  | cons first others =>
    intro lexeme hmem
    rcases List.mem_cons.mp hmem with rfl | hmem
    · exact h first List.mem_cons_self
    · exact h lexeme (List.mem_cons_of_mem _ hmem)

/-! ## Combinations -/

/-- Every nonterminal without an error leaves the stack as it was. -/
def Grammar.Tidy (grammar : Grammar) (depth : Nat) : Prop :=
  ∀ (rule : Rule) {state last : ParseState}, SoundInput state.rest →
    grammar rule depth state = .ok last → ParseState.Tidy rule.mode [] [] state last

namespace Twin

open ParseState

variable {grammar grammar' : Grammar} {depth : Nat} {mode : Mode} {known : List Lexeme → Prop}
  {takes : Bool} {pending next : List Closer} {body body' : Production}

/-- A combination does to the stack what it promises. -/
theorem tidy (h : Twin grammar grammar' depth mode known takes pending next body body')
    (hadvances : grammar.Advances depth) (hcalls : grammar.Tidy depth)
    {state last : ParseState} (hsound : SoundInput state.rest)
    (hknown : known (Lexeme.bare state.rest)) (hrun : body state = .ok last) :
    Tidy mode pending next state last := by
  induction h generalizing state last with
  | skip => exact Except.ok.inj hrun ▸ .refl _ _ _
  | fail => simp [Production.fail] at hrun
  | take _ htakes =>
    have hnesting := htakes.nesting hknown
      fun lexeme hmem => hsound.bare lexeme (List.mem_of_mem_take hmem)
    obtain ⟨first, more, others, hrest, hcount, htaken⟩ := exists_taken (htakes.enough hknown)
    obtain rfl := Except.ok.inj hrun
    rw [bumpJoined_append _ hrest hcount]
    refine fun hclean => ⟨fun node hmem => hclean node (List.mem_cons_of_mem _
      (List.mem_append_right _ hmem)), Lexeme.tokens (first :: more), ?_, ?_⟩
    · rw [hrest]
      exact List.map_append
    · rw [htaken] at hnesting
      exact hnesting
  | string =>
    obtain ⟨first, others, hrest, hkind, rfl⟩ := Production.stringLiteral_eq_ok.mp hrun
    have hplain : first.token.role = .plain := by
      refine Token.role_eq_plain_of_kind (hsound first (by simp [hrest])) ?_ ?_ <;> simp [hkind]
    refine fun hclean => ⟨hclean.of_close.1.of_flush, [first.token], ?_, fun below _ => ?_⟩
    · simp [hrest, Lexeme.tokens]
    · exact Nesting.run_plain (by simpa using hplain)
  | @choose _ _ _ _ _ select _ hselect _ _ ih =>
    have hchosen : select state.rest state = .ok last := hrun
    rw [← hselect.bare] at hchosen
    exact ih _ hknown hsound rfl hchosen
  | orElse _ _ _ ih₁ ih₂ =>
    rcases Production.orElse_eq_ok.mp hrun with hfirst | ⟨-, hsecond⟩
    · exact ih₁ hsound hknown hfirst
    · exact ih₂ hsound hknown hsecond
  | seq htwin _ _ ih₁ ih₂ =>
    obtain ⟨between, hfirst, hsecond⟩ := Production.seq_eq_ok.mp hrun
    have hfollows := (htwin.advances hadvances hknown hfirst).1
    exact (ih₁ hsound hknown hfirst).trans (ih₂ (hsound.of_follows hfollows) trivial hsecond)
  | node _ _ ih =>
    obtain ⟨inner, hinner, rfl⟩ := Production.node_eq_ok.mp hrun
    intro hclean
    obtain ⟨houter, hinside⟩ := hclean.of_close
    have hbalances := (ih (by simpa using hsound.bare) (by simpa using hknown) hinner hinside).2
    exact ⟨houter.of_flush, hbalances.of_tokens (by simp) (by simp)⟩
  | inScope _ ih =>
    obtain ⟨inner, hinner, rfl⟩ := Production.inScope_eq_ok.mp hrun
    intro hclean
    have houter : state.flush.Clean := hclean.of_append rfl
    have hinside : inner.Clean := fun node hmem => hclean node (List.mem_append_left _ hmem)
    have hbalances := (ih (by simpa using hsound.bare) (by simpa using hknown) hinner hinside).2
    exact ⟨houter.of_flush, hbalances.of_tokens (by simp) rfl⟩
  | enclose _ _ ih =>
    obtain ⟨inner, hinner, rfl⟩ := Production.enclose_eq_ok.mp hrun
    intro hclean
    have hinside := clean_of_hasError_ofChildren (hclean _ List.mem_cons_self)
    obtain ⟨hstate, hbalances⟩ := ih hsound hknown hinner hinside
    exact ⟨hstate, hbalances.of_tokens rfl rfl⟩
  | @whileAhead mode _ _ pending look body _ hlook htwin _ ih =>
    have hturn : ∀ {here after : ParseState}, look here.rest = true → body here = .ok after →
        here.Follows state ∧ Tidy mode pending pending state here →
        after.Follows state ∧ Tidy mode pending pending state after := by
      rintro here after hl hbody ⟨hfollows, htidy⟩
      have hk := (hlook.bare _).trans hl
      exact ⟨(htwin.advances hadvances hk hbody).1.trans hfollows,
        htidy.trans (ih (hsound.of_follows hfollows) hk hbody)⟩
    exact (Production.iterate_whileTurn_keeps hturn hrun ⟨.refl state, .refl _ _ _⟩).2
  | @braced mode _ pending item _ htwin ih =>
    -- between the braces the stack is that before them with the brace on it
    have hitem : ∀ {here after : ParseState}, here.sees "\x7d" = false → here.rest ≠ [] →
        item here = .ok after →
        here.Follows state ∧ Tidy mode pending (.brace :: pending) state here →
        after.Follows state ∧ Tidy mode pending (.brace :: pending) state after := by
      rintro here after hs hne hi ⟨hfollows, htidy⟩
      have hk := Lookahead.item_bare.mpr ⟨hne, hs⟩
      refine ⟨(htwin.advances hadvances hk hi).1.trans hfollows, htidy.trans fun hclean => ?_⟩
      obtain ⟨hhere, hbalances⟩ := ih (hsound.of_follows hfollows) hk hi hclean
      exact ⟨hhere, hbalances.enter fun _ => rfl⟩
    obtain ⟨between, ⟨-, htidy⟩, hlast⟩ := Production.braced_keeps hitem hrun fun hopen =>
      ⟨state.bump_follows, fun hclean => ⟨hclean.of_bump, .bump hopen (.opens .brace)⟩⟩
    rcases hlast with ⟨hsees, rfl⟩ | ⟨-, rfl⟩
    · exact htidy.trans fun hclean => ⟨hclean.of_bump, .bump hsees (.closes .brace)⟩
    · exact fun hclean => absurd hclean between.not_clean_missing
  | recover => exact Except.ok.inj hrun ▸ .recovery _ _
  | orRecover _ _ ih =>
    rcases Production.orRecover_eq_ok.mp hrun with ⟨-, rfl⟩ | ⟨next, hnext, -, rfl⟩ | ⟨htaken, -⟩
    · exact .recovery _ _
    · exact .trans (ih hsound hknown hnext) (.recovery _ _)
    · exact ih hsound hknown htaken
  | call rule => exact hcalls rule hsound hrun
  | weaken _ hle hk _ ih =>
    intro hclean
    obtain ⟨hstate, hbalances⟩ := ih hsound (hk _ hknown) hrun hclean
    exact ⟨hstate, hbalances.weaken hle⟩
  | enter _ hallows ih =>
    intro hclean
    obtain ⟨hstate, hbalances⟩ := ih hsound hknown hrun hclean
    exact ⟨hstate, hbalances.enter hallows⟩

end Twin

theorem Grammar.upTo_tidy (fuel depth : Nat) : (upTo fuel).Tidy depth := by
  induction fuel generalizing depth with
  | zero =>
    intro rule state last _ hrun
    cases hrun
  | succ fuel ih =>
    intro rule state last hsound hrun
    have hstep : Twin (upTo fuel) (upTo fuel) _ _ Unknown true [] [] _ _ := .step rule depth
    exact hstep.tidy (upTo_advances fuel _) (ih _) hsound trivial hrun

/-! ## Declarations -/

/-- The last token taken between two states closes a declaration. The trivia behind the last
token of the text is still to come. -/
structure ParseState.EndsOn (state last : ParseState) : Prop where
  closing : ∃ taken closing,
    Lexeme.tokens state.rest = taken ++ closing :: Lexeme.tokens last.rest ∧
      closing.isFinal = true
  trailing : last.trailing = state.trailing

namespace ParseState

theorem EndsOn.ne_nil {state last : ParseState} (h : EndsOn state last) : state.rest ≠ [] := by
  obtain ⟨taken, closing, htokens, -⟩ := h.closing
  rintro hnil
  simp [hnil, Lexeme.tokens] at htokens

theorem EndsOn.of_follows {state between last : ParseState} (h : EndsOn between last)
    (hfollows : between.Follows state) : EndsOn state last := by
  obtain ⟨taken, closing, htokens, hfinal⟩ := h.closing
  obtain ⟨before, hbefore⟩ := hfollows.tokens
  exact ⟨⟨before ++ taken, closing, by rw [← hbefore, htokens, List.append_assoc], hfinal⟩,
    h.trailing.trans (hfollows.trailing h.ne_nil)⟩

/-- Only what is built may change. -/
theorem EndsOn.rebuilt {state last last' : ParseState} (h : EndsOn state last)
    (hrest : last'.rest = last.rest) (htrailing : last'.trailing = last.trailing) :
    EndsOn state last' :=
  ⟨hrest ▸ h.closing, htrailing.trans h.trailing⟩

theorem endsOn_bump {state : ParseState} {text : String} (hsees : state.sees text = true)
    (hfinal : (Role.ofText text == .ends || Role.ofText text == .closes .brace) = true) :
    EndsOn state state.bump := by
  obtain ⟨first, others, hrest, his⟩ := sees_eq_true.mp hsees
  refine ⟨⟨[], first.token, by simp [bump_cons hrest, hrest, Lexeme.tokens], ?_⟩,
    by rw [bump_cons hrest]⟩
  rwa [Token.isFinal, Token.role_of_is his]

end ParseState

/-- If a closing token was missing, the input is used up and there is an error. -/
def ParseState.Complete (state : ParseState) : Prop :=
  state.Clean ∨ state.rest ≠ []

theorem ParseState.not_complete_missing {state : ParseState} (h : state.rest = []) :
    ¬ state.missing.Complete := by
  rintro (hclean | hne)
  · exact state.not_clean_missing hclean
  · simp [h, Lexeme.bare] at hne

namespace Ended

open ParseState

variable {grammar grammar' : Grammar} {depth : Nat} {mode : Mode} {base : List Closer}
  {known : List Lexeme → Prop} {body body' : Production}

theorem mode_eq (h : Ended grammar grammar' depth mode base known body body') :
    mode = .inner ∧ base = [.semicolon] ∨ mode = .direct ∧ base = [] := by
  induction h with
  | semicolon => exact .inl ⟨rfl, rfl⟩
  | braced | fail | block => exact .inr ⟨rfl, rfl⟩
  | seq _ _ ih | node _ _ ih | inScope _ ih | enclose _ _ ih | ifAhead _ _ _ ih => exact ih

/-- On its own a declaration closes what is pending. -/
theorem alone (h : Ended grammar grammar' depth mode base known body body') :
    Twin grammar grammar' depth .direct known true base [] body body' := by
  induction h with
  | semicolon => exact .expect ";" fun _ _ => rfl
  | braced hitem => exact .braced hitem
  | fail => exact .fail
  | block => exact .ruleDirect .block rfl
  | seq hfirst hsecond ih =>
    rcases hsecond.mode_eq with ⟨rfl, rfl⟩ | ⟨rfl, rfl⟩
    · exact (hfirst.enter fun _ => List.cons_ne_nil _ _).before ih
    · exact hfirst.before ih
  | node hkind _ ih => exact .node hkind ih
  | inScope _ ih => exact .inScope ih
  | enclose hkind _ ih => exact .enclose hkind ih
  | ifAhead hlook _ _ ihyes ihno => exact .ifAhead hlook ihyes ihno

/-- A declaration ends on the token that closes it, unless that token is missing. -/
theorem endsOn (h : Ended grammar grammar' depth mode base known body body')
    (hadvances : grammar.Advances depth)
    (hblock : ∀ {state last : ParseState}, grammar .block depth state = .ok last →
      last.Complete → EndsOn state last)
    {state last : ParseState} (hknown : known (Lexeme.bare state.rest))
    (hrun : body state = .ok last) (hcomplete : last.Complete) : EndsOn state last := by
  induction h generalizing state last with
  | semicolon =>
    obtain ⟨hsees, rfl⟩ := Production.expect_eq_ok.mp hrun
    exact endsOn_bump hsees (by decide)
  | braced hitem =>
    obtain ⟨between, hbetween, hlast⟩ := Production.braced_keeps (I := (·.Follows state))
      (fun hs hne hi hfollows =>
        (hitem.advances hadvances (Lookahead.item_bare.mpr ⟨hne, hs⟩) hi).1.trans hfollows)
      hrun fun _ => state.bump_follows
    rcases hlast with ⟨hsees, rfl⟩ | ⟨hend, rfl⟩
    · exact (endsOn_bump hsees (by decide)).of_follows hbetween
    · exact absurd hcomplete (not_complete_missing hend)
  | fail => cases hrun
  | block => exact hblock hrun hcomplete
  | seq hfirst _ ih =>
    obtain ⟨between, hrunFirst, hrunSecond⟩ := Production.seq_eq_ok.mp hrun
    exact (ih trivial hrunSecond hcomplete).of_follows
      (hfirst.advances hadvances hknown hrunFirst).1
  | node _ _ ih =>
    obtain ⟨inner, hinner, rfl⟩ := Production.node_eq_ok.mp hrun
    exact ((ih (by simpa using hknown) hinner (hcomplete.imp (·.of_close.2) id)).of_follows
      state.flush_opened_follows).rebuilt rfl rfl
  | inScope _ ih =>
    obtain ⟨inner, hinner, rfl⟩ := Production.inScope_eq_ok.mp hrun
    have hinside : inner.Complete :=
      hcomplete.imp (fun hclean node hmem => hclean node (List.mem_append_left _ hmem)) id
    exact ((ih (by simpa using hknown) hinner hinside).of_follows
      state.flush_opened_follows).rebuilt rfl rfl
  | enclose _ _ ih =>
    obtain ⟨inner, hinner, rfl⟩ := Production.enclose_eq_ok.mp hrun
    have hinside : inner.Complete :=
      hcomplete.imp (fun hclean => clean_of_hasError_ofChildren (hclean _ List.mem_cons_self)) id
    exact (ih hknown hinner hinside).rebuilt rfl rfl
  | ifAhead hlook _ _ ihyes ihno =>
    rcases Production.ifAhead_eq_ok.mp hrun with ⟨hl, hyes⟩ | ⟨hl, hno⟩
    · exact ihyes ⟨hknown, (hlook.bare _).trans hl⟩ hyes hcomplete
    · exact ihno ⟨hknown, (hlook.bare _).trans hl⟩ hno hcomplete

end Ended

/-- Statements in braces end on the closing brace. -/
theorem Ended.blockStep {grammar grammar' : Grammar} {depth : Nat}
    {known : List Lexeme → Prop} :
    Ended grammar grammar' (depth + 1) .direct [] known (Production.block grammar depth)
      (Production.block grammar' depth) := by
  unfold Production.block Grammar.nested
  split
  · exact .fail
  · exact .node rfl (.braced (.orRecover (fun _ => id) .statement))

theorem Grammar.upTo_block_endsOn {fuel depth : Nat} {state last : ParseState}
    (hrun : upTo fuel .block depth state = .ok last) (hcomplete : last.Complete) :
    ParseState.EndsOn state last := by
  induction fuel generalizing depth state last with
  | zero => cases hrun
  | succ fuel ih =>
    have hstep : Ended (upTo fuel) (upTo fuel) (depth + 1) .direct [] Unknown _ _ := .blockStep
    exact hstep.endsOn (upTo_advances fuel _) ih trivial hrun hcomplete

namespace Ended

variable {fuel depth : Nat} {mode : Mode} {base : List Closer} {known : List Lexeme → Prop}
  {body body' : Production} {grammar' : Grammar}

/-- The tokens of a declaration without an error are a bounded stretch. -/
theorem bounded (h : Ended (.upTo fuel) grammar' depth mode base known body body')
    {state last : ParseState} (hsound : SoundInput state.rest)
    (hknown : known (Lexeme.bare state.rest)) (hrun : body state = .ok last)
    (hclean : last.Clean) :
    ∃ left after, state.rest = left ++ after ∧ after.length = last.rest.length ∧
      Bounded base left := by
  have hadvances := Grammar.upTo_advances fuel depth
  obtain ⟨-, taken, htaken, hnesting⟩ := h.alone.tidy hadvances (Grammar.upTo_tidy fuel depth)
    hsound hknown hrun hclean
  obtain ⟨before, closing, hends, hfinal⟩ :=
    (h.endsOn hadvances Grammar.upTo_block_endsOn hknown hrun (.inl hclean)).closing
  have hclosing : taken = before ++ [closing] := by
    rw [htaken, List.append_cons] at hends
    exact List.append_cancel_right hends
  have hlength := congrArg List.length htaken
  simp only [Lexeme.tokens, List.length_map, List.length_append] at hlength
  have hleft : Lexeme.tokens (state.rest.take taken.length) = taken := by
    rw [Lexeme.tokens, List.map_take]
    exact (congrArg (List.take _) htaken).trans (List.take_left ..)
  refine ⟨state.rest.take taken.length, state.rest.drop taken.length,
    (List.take_append_drop _ _).symm, ?_, ?_, fun lexeme hlast => ?_⟩
  · rw [List.length_drop]
    omega
  · rw [hleft]
    simpa using hnesting [] trivial
  · have hlast' : (Lexeme.tokens (state.rest.take taken.length)).getLast?
        = some lexeme.token := by
      rw [Lexeme.tokens, List.getLast?_map, hlast]
      rfl
    rw [hleft, hclosing, List.getLast?_concat] at hlast'
    exact Option.some.inj hlast' ▸ hfinal

end Ended

end Azsl
