/-
Azsl.Proofs.Parse.Points — where the declarations of a file start.

A declaration of a file ends on a closing token, and passing over what is none stops behind one
or before a line that opens a declaration. So between two declarations the text may be cut: the
next one never starts inside an include.
-/
import Azsl.Proofs.Grammar.Replay
import Azsl.Proofs.Parse.Fresh
import Azsl.Proofs.Token.Bound

namespace Azsl

open ParseState

/-! ## Where a declaration ends -/

/-- The tokens taken between two states end on a closing token. -/
def ParseState.Closes (state last : ParseState) : Prop :=
  ∃ taken, Lexeme.tokens state.rest = taken ++ Lexeme.tokens last.rest ∧ Token.Closed taken

theorem Token.text_of_isFinal {token : Token} (h : token.isFinal = true) :
    (token.kind = .word ∨ token.kind = .punct) ∧ (token.text = ";" ∨ token.text = "\x7d") := by
  unfold isFinal role at h
  split_ifs at h with hkind hstray
  · refine ⟨hkind, ?_⟩
    unfold Role.ofText at h
    split_ifs at h <;> first | exact absurd h (by decide) | simp [*]
  · cases h
  · cases h

theorem ParseState.EndsOn.closes {state last : ParseState} (h : EndsOn state last) :
    Closes state last := by
  obtain ⟨taken, closing, htokens, hfinal⟩ := h.closing
  obtain ⟨hkind, htext⟩ := Token.text_of_isFinal hfinal
  refine ⟨taken ++ [closing], by simpa using htokens, taken, closing, rfl, hkind, .inl ?_⟩
  rcases htext with htext | htext <;> simp [htext]

theorem ParseState.Closes.of_follows {state between last : ParseState} (h : Closes between last)
    (hfollows : between.Follows state) : Closes state last := by
  obtain ⟨taken, htokens, hclosed⟩ := h
  obtain ⟨before, hbefore⟩ := hfollows.tokens
  exact ⟨before ++ taken, by rw [← hbefore, htokens, List.append_assoc], hclosed.append before⟩

/-- Unless a closing token is missing, a production ends on one. -/
def Production.Finishes (body : Production) : Prop :=
  ∀ state last : ParseState, body state = .ok last → last.Complete → Closes state last

namespace Production.Finishes

variable {first second : Production}

theorem of_ended (fuel : Nat) {mode : Mode} {base : List Closer} {body : Production}
    (h : Ended (.upTo fuel) (.upTo fuel) 0 mode base Unknown body body) : Finishes body :=
  fun _ _ hrun hcomplete =>
    (h.endsOn (Grammar.upTo_advances fuel 0) Grammar.upTo_block_endsOn trivial hrun
      hcomplete).closes

theorem ifAhead {look : List Lexeme → Bool} (hfirst : Finishes first) (hsecond : Finishes second) :
    Finishes (.ifAhead look first second) := by
  intro state last hrun hcomplete
  rcases ifAhead_eq_ok.mp hrun with ⟨-, hyes⟩ | ⟨-, hno⟩
  · exact hfirst state last hyes hcomplete
  · exact hsecond state last hno hcomplete

theorem choose {select : List Lexeme → Production} (h : ∀ rest, Finishes (select rest)) :
    Finishes (.choose select) :=
  fun state last hrun hcomplete => h state.rest state last hrun hcomplete

theorem orElse (hfirst : Finishes first) (hsecond : Finishes second) :
    Finishes (.orElse first second) := by
  intro state last hrun hcomplete
  rcases orElse_eq_ok.mp hrun with hfirst' | ⟨-, hsecond'⟩
  · exact hfirst state last hfirst' hcomplete
  · exact hsecond state last hsecond' hcomplete

/-- Two brackets that touch, as one leaf. -/
theorem bumpJoined_brackets {state : ParseState} {text : String}
    (h : Lookahead.isAt state.rest 0 text = true) (h' : Lookahead.isAt state.rest 1 text = true) :
    ∃ first second others, state.rest = first :: second :: others ∧ second.token.is text = true ∧
      (state.bumpJoined 1 .token).rest = others ∧
      (state.bumpJoined 1 .token).Follows state := by
  match hrest : state.rest with
  | [] => simp [Lookahead.isAt, Lookahead.token?, hrest] at h
  | [first] => simp [Lookahead.isAt, Lookahead.token?, hrest] at h'
  | first :: second :: others =>
    have hsplit : state.rest = first :: [second] ++ others := hrest
    have hbump := bumpJoined_append .token hsplit rfl
    rw [List.length_singleton] at hbump
    refine ⟨first, second, others, rfl, ?_, by rw [hbump], ?_⟩
    · simpa [Lookahead.isAt, Lookahead.token?, hrest] using h'
    · rw [hbump]
      exact ⟨⟨[first.token, second.token], by simp [hrest, Lexeme.tokens]⟩, fun _ => rfl, rfl⟩

theorem attributeSequence : Finishes Production.attributeSequence := by
  intro state last hrun _
  have hitems : Twin (.upTo 0) (.upTo 0) 0 .direct Unknown true [] []
      (commaSeparated attributeItem) (commaSeparated attributeItem) :=
    .commaSeparated .attributeItem
  obtain ⟨inner, hinner, rfl⟩ := node_eq_ok.mp hrun
  obtain ⟨opened, hguard, hbehind⟩ := seq_eq_ok.mp hinner
  obtain ⟨hopen, rfl⟩ := guard_eq_ok.mp hguard
  obtain ⟨bumped, hbump, hitems'⟩ := seq_eq_ok.mp hbehind
  obtain rfl := Except.ok.inj hbump
  obtain ⟨between, hitem, hclosing⟩ := seq_eq_ok.mp hitems'
  obtain ⟨closed, hguard', hlast⟩ := seq_eq_ok.mp hclosing
  obtain ⟨hclose, rfl⟩ := guard_eq_ok.mp hguard'
  obtain rfl := Except.ok.inj hlast
  simp only [Lookahead.isAttributeSequence, Bool.and_eq_true] at hopen hclose
  obtain ⟨-, -, -, -, -, -, hfollows⟩ := bumpJoined_brackets hopen.1.1 hopen.1.2
  obtain ⟨first, second, others, hrest, hsecond, hothers, -⟩ :=
    bumpJoined_brackets hclose.1.1 hclose.1.2
  have hbetween := (hitems.advances (Grammar.upTo_advances 0 0) trivial hitem).1
  refine Closes.of_follows ?_
    ((hbetween.trans hfollows).trans state.flush_opened_follows)
  refine ⟨[first.token, second.token], ?_, [first.token], second.token, rfl,
    Token.kind_of_is hsecond, .inl ?_⟩
  · rw [close_rest, hothers, hrest]
    rfl
  · simp [Token.text_of_is hsecond]

theorem includeStatement : Finishes Production.includeStatement := by
  intro state last hrun _
  obtain ⟨first, opening, path, closing, others, hrest, hpath, hdelimits⟩ :=
    includeStatement_inv hrun
  rw [includeStatement_apply hrest hpath hdelimits] at hrun
  obtain rfl := Except.ok.inj hrun
  refine ⟨[first.token, opening.token, path.token, closing.token], ?_,
    [first.token, opening.token, path.token], closing.token, rfl, ?_,
    .inr ⟨[first.token, opening.token], path.token, rfl, hpath⟩⟩
  · simp [hrest, Lexeme.tokens]
  · rcases hdelimits with ⟨-, hclosing⟩ | ⟨-, hclosing⟩
    · exact Token.kind_of_is hclosing
    · exact Token.kind_of_is hclosing

theorem topLevelDeclaration (fuel : Nat) :
    Finishes (Production.topLevelDeclaration (.upTo fuel) 0) := by
  have hvariables : Finishes (Production.variableStatement (.upTo fuel) 0) :=
    of_ended fuel .variableStatement
  have hfunction : Finishes (Production.attributedFunction (.upTo fuel) 0) := by
    rw [Production.attributedFunction_eq]
    exact orElse (of_ended fuel .declaredFunction) (of_ended fuel .definedFunction)
  have hsemicolon : ∀ {other : Production}, Finishes other → Finishes (.ifAt ";" .bump other) := by
    intro other hother
    rw [Replays.ifAt_bump]
    have hends : Ended (.upTo fuel) (.upTo fuel) 0 _ _ Unknown (expect ";") (expect ";") :=
      .semicolon
    exact ifAhead (of_ended fuel hends) hother
  refine ifAhead includeStatement <| hsemicolon <| ifAhead (of_ended fuel .compilerExtension) <|
    ifAhead (of_ended fuel .typeAlias) <| choose fun rest => ?_
  unfold Production.declarationOf
  split_ifs
  · exact of_ended fuel .resourceGroup
  · exact of_ended fuel .resourceGroupSemantic
  · exact orElse (of_ended fuel .structuredStatement) hvariables
  · exact orElse hfunction (ifAhead attributeSequence hvariables)

end Production.Finishes

/-! ## Where passing over input stops -/

namespace Recovery

theorem text_of_depthAfter {token : Token} {depth : Nat} (h : depthAfter token depth = none) :
    token.kind = .punct ∧ (token.text = ";" ∨ token.text = "\x7d") := by
  unfold depthAfter at h
  split_ifs at h with hkind hopen hbrace hclose hsemicolon
  · exact ⟨hkind, .inr hbrace⟩
  · exact ⟨hkind, .inl hsemicolon.1⟩

/-- Passing over input stops at its end, before what parsing can go on with, or right behind a
closing token. -/
theorem extentFrom_stops (mode : Recovery) (depth : Nat) (input : List Lexeme) :
    input.drop (mode.extentFrom depth input) = [] ∨
      mode.stopsBefore (input.drop (mode.extentFrom depth input)) = true ∨
      ∃ front closing, input.take (mode.extentFrom depth input) = front ++ [closing] ∧
        closing.token.kind = .punct ∧
        (closing.token.text = ";" ∨ closing.token.text = "\x7d") := by
  induction input generalizing depth with
  | nil => exact .inl rfl
  | cons next rest ih =>
    rw [extentFrom]
    split
    · rename_i hstops
      exact .inr (.inl hstops.2)
    · split
      · rename_i hdepth
        exact .inr (.inr ⟨[], next, rfl, text_of_depthAfter hdepth⟩)
      · rename_i inner _
        rw [Nat.add_comm, List.drop_succ_cons, List.take_succ_cons]
        refine (ih inner).imp id (Or.imp id ?_)
        rintro ⟨front, closing, htake, hclosing⟩
        exact ⟨next :: front, closing, by rw [htake]; rfl, hclosing⟩

theorem extent_stops (mode : Recovery) {input : List Lexeme} (h : input ≠ []) :
    input.drop (mode.extent input) = [] ∨
      mode.stopsBefore (input.drop (mode.extent input)) = true ∨
      ∃ front closing, input.take (mode.extent input) = front ++ [closing] ∧
        closing.token.kind = .punct ∧
        (closing.token.text = ";" ∨ closing.token.text = "\x7d") := by
  cases input with
  | nil => exact absurd rfl h
  | cons next rest =>
    rw [extent]
    split
    · rename_i hdepth
      exact .inr (.inr ⟨[], next, rfl, text_of_depthAfter hdepth⟩)
    · rename_i inner _
      rw [Nat.add_comm, List.drop_succ_cons, List.take_succ_cons]
      refine (extentFrom_stops mode inner rest).imp id (Or.imp id ?_)
      rintro ⟨front, closing, htake, hclosing⟩
      exact ⟨next :: front, closing, by rw [htake]; rfl, hclosing⟩

end Recovery

/-- A token that opens a declaration wherever it stands: the first on its line, or an include. -/
def Token.Leads (token : Token) : Prop :=
  token.leadsLine = true ∨ token.kind = .includeDirective

theorem Token.leads_of_isLeadingDeclaration {input : List Lexeme}
    (h : Lookahead.isLeadingDeclaration input = true) :
    ∃ next others, Lexeme.tokens input = next :: others ∧ next.Leads := by
  cases input with
  | nil => cases h
  | cons first others =>
    refine ⟨first.token, Lexeme.tokens others, rfl, ?_⟩
    simp only [Lookahead.isLeadingDeclaration, Lookahead.token?, List.getElem?_cons_zero,
      Option.map_some, Bool.or_eq_true, beq_iff_eq, Bool.and_eq_true] at h
    exact h.symm.imp And.left id

/-- The next token may start a declaration, whatever was taken before. -/
def ParseState.Stands (taken : List Token) (state : ParseState) : Prop :=
  ∀ next others, Lexeme.tokens state.rest = next :: others →
    Token.Closed taken ∨ next.Leads

/-- What lies between two states ends where a declaration may start. -/
def ParseState.Settles (state last : ParseState) : Prop :=
  ∃ taken, Lexeme.tokens state.rest = taken ++ Lexeme.tokens last.rest ∧ last.Stands taken

theorem Recovery.topLevel_settles {state : ParseState} (h : state.rest ≠ []) :
    Settles state (topLevel.run state) := by
  have hrest := tokens_run topLevel state
  refine ⟨(Lexeme.tokens state.rest).take (topLevel.extent (Lexeme.bare state.rest)), ?_,
    fun next others hnext => ?_⟩
  · rw [hrest, List.take_append_drop]
  · have htake : ∀ n, (Lexeme.tokens state.rest).take n
        = Lexeme.tokens ((Lexeme.bare state.rest).take n) := by
      intro n
      rw [Lexeme.tokens, Lexeme.tokens, List.map_take]
      exact congrArg (List.take n) (Lexeme.tokens_bare state.rest).symm
    have hdrop : Lexeme.tokens ((Lexeme.bare state.rest).drop
        (topLevel.extent (Lexeme.bare state.rest))) = next :: others := by
      rw [← hnext, hrest, Lexeme.tokens, Lexeme.tokens, List.map_drop]
      exact congrArg (List.drop _) (Lexeme.tokens_bare state.rest)
    rcases topLevel.extent_stops (mt Lexeme.bare_eq_nil.mp h) with hend | hstops |
      ⟨front, closing, hclosing, hkind, htext⟩
    · rw [hend] at hdrop
      cases hdrop
    · obtain ⟨other, more, hother, hleads⟩ := Token.leads_of_isLeadingDeclaration hstops
      obtain ⟨rfl, -⟩ := List.cons.inj (hdrop.symm.trans hother)
      exact .inr hleads
    · refine .inl ⟨Lexeme.tokens front, closing.token, ?_, .inr hkind, .inl ?_⟩
      · rw [htake, hclosing]
        simp [Lexeme.tokens]
      · rcases htext with htext | htext <;> simp [htext]

namespace Parse

theorem declare_settles (fuel : Nat) {state : ParseState} (h : state.rest ≠ []) :
    Settles state (declare (.upTo fuel) state) := by
  have htwin : Twin (.upTo fuel) (.upTo fuel) 0 _ Unknown true [] [] _ _ :=
    .topLevelDeclaration
  unfold declare
  split
  · rename_i last hrun
    obtain ⟨hfollows, hlt⟩ := htwin.advances (Grammar.upTo_advances fuel 0) trivial hrun
    rw [if_neg (by have := hlt rfl; omega)]
    by_cases hrest : last.rest = []
    · obtain ⟨taken, htaken⟩ := hfollows.tokens
      refine ⟨taken, htaken.symm, fun next others hnext => ?_⟩
      simp [hrest, Lexeme.tokens] at hnext
    · obtain ⟨taken, htaken, hclosed⟩ :=
        Production.Finishes.topLevelDeclaration fuel state last hrun (.inr hrest)
      exact ⟨taken, htaken, fun _ _ _ => .inl hclosed⟩
  · exact Recovery.topLevel_settles h

/-! ## Points -/

/-- A state in which a declaration of a text starts, behind some tokens. -/
structure Point (chars : List Char) (past : List Token) (state : ParseState) : Prop where
  parsed : state.Parsed 0 past
  stream : tokenize chars = past ++ state.stream
  textEnd : state.textEnd = Location.origin.advance chars
  bound : ∀ next others, Lexeme.tokens state.rest = next :: others →
    ¬ Token.Awaits (Token.plain past) ∨ next.Leads

theorem Point.initial (chars : List Char) : Point chars [] (Parse.initial chars) where
  parsed := initial_parsed chars
  stream := (initial_stream chars).symm
  textEnd := rfl
  bound _ _ _ := by
    refine .inl ?_
    rintro ⟨before, directive, more, heq, -⟩
    simp [Token.plain] at heq

theorem Point.declare {chars : List Char} {past : List Token} {state : ParseState}
    (h : Point chars past state) (fuel : Nat) (hne : state.rest ≠ []) :
    ∃ taken, Point chars (past ++ taken) (Parse.declare (.upTo fuel) state) := by
  obtain ⟨taken, hstream, hparsed, hend⟩ := declare_reads fuel h.parsed hne
  refine ⟨taken, hparsed, by rw [h.stream, hstream, List.append_assoc], hend.trans h.textEnd,
    fun next others hnext => ?_⟩
  obtain ⟨plain, hplain, hstands⟩ := declare_settles fuel hne
  -- The tokens taken are the same whether trivia is counted or not.
  obtain ⟨here, -, hready⟩ := h.parsed
  obtain ⟨here', -, hready'⟩ := hparsed
  have htaken : Token.plain taken = plain := by
    have hfilter := congrArg Token.plain hstream
    rw [Token.plain, Token.plain, List.filter_append, hready.filter_stream,
      hready'.filter_stream, hplain] at hfilter
    exact (List.append_cancel_right hfilter).symm
  refine (hstands next others hnext).imp (fun hclosed => ?_) id
  rw [← htaken] at hclosed
  rw [Token.plain, List.filter_append]
  exact (hclosed.append _).not_awaits

end Parse

end Azsl
