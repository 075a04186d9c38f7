/-
Azsl.Proofs.Grammar.Turns — every turn of a loop takes a token.

`TurnsAdvance` follows a production from a state through its parts. Wherever it comes to a loop,
a turn that is not the last one leaves fewer tokens than it found; a turn that does not match
leaves the loop with an error. This holds of every combination, so it holds of every nonterminal
and of every declaration of a file, from any state.
-/
import Azsl.Proofs.Grammar.Adequacy

namespace Azsl

open Production in
/-- Every turn of a loop that a production comes to, when it is run from a state, takes a token or
leaves the loop. Loops inside of nonterminals are those of the nonterminals. -/
inductive TurnsAdvance (grammar : Grammar) (depth : Nat) : Production → ParseState → Prop
  | ok {state} : TurnsAdvance grammar depth .ok state
  | fail {state} : TurnsAdvance grammar depth fail state
  | take {count kind state} : TurnsAdvance grammar depth (bumpJoined count kind) state
  | string {state} : TurnsAdvance grammar depth stringLiteral state
  | recover {state} : TurnsAdvance grammar depth recover state
  | call (rule : Rule) {state} : TurnsAdvance grammar depth (grammar rule depth) state
  | choose {select state} :
      TurnsAdvance grammar depth (select state.rest) state →
      TurnsAdvance grammar depth (choose select) state
  | orElse {first second state} :
      TurnsAdvance grammar depth first state →
      (first state = .error .mismatch → TurnsAdvance grammar depth second state) →
      TurnsAdvance grammar depth (orElse first second) state
  | orRecover {item state} :
      TurnsAdvance grammar depth item state →
      TurnsAdvance grammar depth (orRecover item) state
  | seq {first second state} :
      TurnsAdvance grammar depth first state →
      (∀ between, first state = .ok between → TurnsAdvance grammar depth second between) →
      TurnsAdvance grammar depth (first >=> second) state
  | node {kind body state} :
      TurnsAdvance grammar depth body state.flush.opened →
      TurnsAdvance grammar depth (node kind body) state
  | inScope {body state} :
      TurnsAdvance grammar depth body state.flush.opened →
      TurnsAdvance grammar depth (inScope body) state
  | enclose {kind body state} :
      TurnsAdvance grammar depth body state →
      TurnsAdvance grammar depth (enclose kind body) state
  /-- A loop that goes on as long as the input has a property. -/
  | whileAhead {look body state} :
      (look state.rest = true → TurnsAdvance grammar depth body state) →
      (∀ next, whileTurn look body state = .ok (.again next) →
        next.rest.length < state.rest.length) →
      (∀ next, whileTurn look body state = .ok (.again next) →
        TurnsAdvance grammar depth (whileAhead look body) next) →
      TurnsAdvance grammar depth (whileAhead look body) state
  /-- A loop that goes on up to a closing brace or the end of the input. -/
  | items {item state} :
      (state.sees "\x7d" = false → state.rest ≠ [] → TurnsAdvance grammar depth item state) →
      (∀ next, bracedTurn item state = .ok (.again next) →
        next.rest.length < state.rest.length) →
      (∀ next, bracedTurn item state = .ok (.again next) →
        TurnsAdvance grammar depth (loop (bracedTurn item)) next) →
      TurnsAdvance grammar depth (loop (bracedTurn item)) state
  | braced {item state} :
      (state.sees "\x7b" = true →
        TurnsAdvance grammar depth (loop (bracedTurn item)) state.bump) →
      TurnsAdvance grammar depth (braced item) state

namespace Production

/-- A turn that goes on has run its body. -/
theorem whileTurn_eq_again {look : List Lexeme → Bool} {body : Production}
    {state next : ParseState} (h : whileTurn look body state = .ok (.again next)) :
    look state.rest = true ∧ body state = .ok next := by
  unfold whileTurn at h
  split at h
  · rename_i hlook
    cases hbody : body state with
    | error stop => simp [hbody] at h
    | ok last =>
      rw [hbody] at h
      obtain rfl := Turn.again.inj (Except.ok.inj h)
      exact ⟨hlook, rfl⟩
  · cases Except.ok.inj h

/-- A turn that goes on has taken an item. -/
theorem bracedTurn_eq_again {item : Production} {state next : ParseState}
    (h : bracedTurn item state = .ok (.again next)) :
    state.sees "\x7d" = false ∧ state.rest ≠ [] ∧ item state = .ok next := by
  unfold bracedTurn at h
  split at h
  · cases Except.ok.inj h
  · rename_i hsees
    split at h
    · cases Except.ok.inj h
    · rename_i hend
      cases hitem : item state with
      | error stop => simp [hitem] at h
      | ok last =>
        rw [hitem] at h
        obtain rfl := Turn.again.inj (Except.ok.inj h)
        exact ⟨by simpa using hsees, by simpa [ParseState.atEnd] using hend, rfl⟩

end Production

namespace Twin

variable {grammar grammar' : Grammar} {depth : Nat} {mode : Mode} {known : List Lexeme → Prop}
  {takes : Bool} {pending next : List Closer} {body body' : Production}

/-- The loops of a combination advance. -/
theorem turnsAdvance (h : Twin grammar grammar' depth mode known takes pending next body body')
    (hadvances : grammar.Advances depth) {state : ParseState}
    (hknown : known (Lexeme.bare state.rest)) : TurnsAdvance grammar depth body state := by
  induction h generalizing state with
  | skip => exact .ok
  | fail => exact .fail
  | take => exact .take
  | string => exact .string
  | @choose _ _ _ _ _ select _ hselect _ _ ih =>
    refine .choose ?_
    rw [← hselect.bare]
    exact ih _ hknown rfl
  | orElse _ _ _ ih₁ ih₂ => exact .orElse (ih₁ hknown) fun _ => ih₂ hknown
  | seq _ _ _ ih₁ ih₂ => exact .seq (ih₁ hknown) fun _ _ => ih₂ trivial
  | node _ _ ih => exact .node (ih (by simpa using hknown))
  | inScope _ ih => exact .inScope (ih (by simpa using hknown))
  | enclose _ _ ih => exact .enclose (ih hknown)
  | @whileAhead _ _ _ _ look body _ hlook htwin _ ih =>
    have hl : ∀ {state : ParseState}, look state.rest = true →
        look (Lexeme.bare state.rest) = true := fun h => (hlook.bare _).trans h
    have hturns : ∀ {state next : ParseState},
        Production.whileTurn look body state = .ok (.again next) →
        next.rest.length < state.rest.length := by
      intro state next hturn
      obtain ⟨hlooks, hbody⟩ := Production.whileTurn_eq_again hturn
      exact (htwin.advances hadvances (hl hlooks) hbody).2 rfl
    -- by induction on the tokens that are left, as each turn takes one
    clear hknown
    induction hlength : state.rest.length using Nat.strongRecOn generalizing state with
    | ind tokens ihTokens =>
      refine .whileAhead (fun hlooks => ih (hl hlooks)) (fun next => hturns) fun next hturn => ?_
      exact ihTokens _ (hlength ▸ hturns hturn) rfl
  | @braced _ _ _ item _ htwin ih =>
    have hturns : ∀ {state next : ParseState},
        Production.bracedTurn item state = .ok (.again next) →
        next.rest.length < state.rest.length := by
      intro state next hturn
      obtain ⟨hsees, hne, hitem⟩ := Production.bracedTurn_eq_again hturn
      exact (htwin.advances hadvances (Lookahead.item_bare.mpr ⟨hne, hsees⟩) hitem).2 rfl
    refine .braced fun _ => ?_
    generalize state.bump = inside
    induction hlength : inside.rest.length using Nat.strongRecOn generalizing inside with
    | ind tokens ihTokens =>
      refine .items (fun hsees hne => ih (Lookahead.item_bare.mpr ⟨hne, hsees⟩))
        (fun next => hturns) fun next hturn => ?_
      exact ihTokens _ (hlength ▸ hturns hturn) next rfl
  | recover => exact .recover
  | orRecover _ _ ih => exact .orRecover (ih hknown)
  | call rule => exact .call rule
  | weaken _ _ hk _ ih => exact ih (hk _ hknown)
  | enter _ _ ih => exact ih hknown

end Twin

/-- The loops of every nonterminal advance. -/
theorem Grammar.step_turnsAdvance (fuel : Nat) (rule : Rule) (depth : Nat) (state : ParseState) :
    TurnsAdvance (upTo fuel) (rule.innerDepth depth) (step (upTo fuel) rule depth) state := by
  have hstep : Twin (upTo fuel) (upTo fuel) _ _ Unknown true [] [] _ _ := .step rule depth
  exact hstep.turnsAdvance (upTo_advances fuel _) trivial

/-- So do those of a declaration of a file. -/
theorem Production.topLevelDeclaration_turnsAdvance (fuel depth : Nat) (state : ParseState) :
    TurnsAdvance (.upTo fuel) depth (topLevelDeclaration (.upTo fuel) depth) state := by
  have htwin : Twin (.upTo fuel) (.upTo fuel) depth _ Unknown true [] [] _ _ :=
    .topLevelDeclaration
  exact htwin.turnsAdvance (Grammar.upTo_advances fuel depth) trivial

end Azsl
