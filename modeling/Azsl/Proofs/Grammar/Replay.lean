/-
Azsl.Proofs.Grammar.Replay — a declaration is parsed the same way wherever it stands.

If a declaration that ends on a token of its own was parsed without an error, and its tokens
stand at the front of some other input, then parsing that input takes just these tokens and
builds the same nodes. What comes behind the declaration makes no difference, neither to the
choices between alternatives nor to the declaration itself.
-/
import Azsl.Proofs.Grammar.Lockstep

namespace Azsl

open ParseState

theorem Grammar.upTo_block_lockstep {d e fuel fuel' depth : Nat} {after after' : List Lexeme}
    {state state' : ParseState} (hsync : Sync d e [] after after' state state')
    (hlt : after.length < state.rest.length) :
    Matched d e [] after after' (upTo fuel .block depth state)
      (upTo fuel' .block depth state') := by
  cases fuel with
  | zero => exact .outOfFuel
  | succ fuel =>
    cases fuel' with
    | zero => exact .outOfFuel'
    | succ fuel' =>
      show Matched d e [] after after' (Production.block (upTo fuel) depth state)
        (Production.block (upTo fuel') depth state')
      have hstatement : Twin (upTo fuel) (upTo fuel') (depth + 1) .statement
          (fun input => input ≠ [] ∧ Lookahead.isAt input 0 "\x7d" = false) true [] []
          _ _ := .orRecover (fun _ => id) .statement
      have hadvances := upTo_advances fuel (depth + 1)
      have hbuilds := upTo_builds fuel (depth + 1)
      unfold Production.block nested
      split
      · exact .mismatch
      · have hbraced : Twin (upTo fuel) (upTo fuel') (depth + 1) .direct Unknown true [] [] _ _ :=
          .braced hstatement
        refine .node _ hsync hlt (hbraced.built_ne_nil hadvances hbuilds trivial) ?_
        refine Production.braced_lockstep (fun hsync' hsees hne => ?_) (hsync.flush hlt).opened
          (by simpa using hlt)
        exact hstatement.lockstep hadvances hbuilds (upTo_lockstep fuel fuel' _) rfl hsync'
          (hsync'.length_lt (by simp))
          (Lookahead.item_bare.mpr ⟨hne, hsees⟩)
          (.inl (List.cons_ne_nil _ _))

/-! ## Input that comes again -/

/-- What a run took stands at the front of another state. -/
structure Again (d e tokens : Nat) (state last state' : ParseState) (after' : List Lexeme) :
    Prop where
  sound : SoundInput state.rest
  built : state.built.map (Node.lift d) = state'.built.map (Node.lift e)
  enough : state'.rest.length ≤ tokens
  input : ∃ left after right, state.rest = left ++ after ∧ after.length = last.rest.length ∧
    state'.rest = right ++ after' ∧ Alike d e left right

/-- A run that took just that and built the same. -/
structure Replayed (d e : Nat) (last state' last' : ParseState) (after' : List Lexeme) :
    Prop where
  rest : last'.rest = after'
  built : last.built.map (Node.lift d) = last'.built.map (Node.lift e)
  trailing : last'.trailing = state'.trailing
  textEnd : last'.textEnd = state'.textEnd

/-- The latest node is a declaration that ends on a token of its own. -/
def ParseState.Delimited (state : ParseState) : Prop :=
  ∀ node ∈ state.built.head?, node.kind.isSelfDelimiting = true

/-- A production does the same wherever its input stands. Its choices are made inside a stretch
that both inputs start with. -/
structure Replays (d e fuel tokens : Nat) (body : Grammar → Production) : Prop where
  replay : ∀ {state last state' : ParseState} {after' : List Lexeme},
    Again d e tokens state last state' after' → body (.upTo fuel) state = .ok last →
    last.Clean → last.Delimited →
    ∃ base after, Sync d e base after after' state state' ∧ after.length < state.rest.length ∧
      ∃ last', body (.forTokens tokens) state' = .ok last' ∧
        Replayed d e last state' last' after'

namespace Ended

variable {d e fuel tokens : Nat} {mode : Mode} {base : List Closer} {body : Grammar → Production}
  {state last state' : ParseState} {after' : List Lexeme}

/-- The tokens of a declaration are a stretch that both inputs start with. -/
theorem sync {body body' : Production}
    (h : Ended (.upTo fuel) (.forTokens tokens) 0 mode base Unknown body body')
    (hagain : Again d e tokens state last state' after') (hrun : body state = .ok last)
    (hclean : last.Clean) :
    ∃ after, after.length = last.rest.length ∧ after.length < state.rest.length ∧
      Sync d e base after after' state state' := by
  obtain ⟨left, after, right, hrest, hafter, hrest', halike⟩ := hagain.input
  obtain ⟨left₀, after₀, hrest₀, hafter₀, hbounded⟩ :=
    h.bounded hagain.sound trivial hrun hclean
  have hsplit : left = left₀ ∧ after = after₀ :=
    List.append_inj' (hrest.symm.trans hrest₀) (hafter.trans hafter₀.symm)
  obtain ⟨rfl, rfl⟩ := hsplit
  have htaken := (h.alone.advances (Grammar.upTo_advances fuel 0) trivial hrun).2 rfl
  refine ⟨after, hafter, by omega, left, right, hrest, hrest', ⟨halike, hbounded, ?_⟩,
    hagain.built⟩
  exact fun lexeme hmem => hagain.sound lexeme (by rw [hrest]; exact List.mem_append_left _ hmem)

theorem terminates {grammar' : Grammar} {body body' : Production}
    (h : Ended (.forTokens tokens) grammar' 0 mode base Unknown body body')
    (henough : state.rest.length ≤ tokens) : body state ≠ .error .outOfFuel :=
  h.alone.terminates (Grammar.upTo_advances _ 0)
    (fun rule _ hle => Grammar.forTokens_terminates rule 0 (Nat.le_trans hle henough))
    (Nat.le_refl _) trivial

/-- Declarations in two states with a stretch in common run side by side. -/
theorem matched {body body' : Production}
    (h : Ended (.upTo fuel) (.forTokens tokens) 0 mode base Unknown body body')
    {after : List Lexeme} (hsync : Sync d e base after after' state state')
    (hlt : after.length < state.rest.length) (hwithin : Within base after (body state)) :
    Matched d e [] after after' (body state) (body' state') :=
  h.lockstep (Grammar.upTo_advances fuel 0) (Grammar.upTo_builds fuel 0)
    (Grammar.upTo_lockstep fuel _ 0) Grammar.upTo_block_lockstep hsync hlt trivial hwithin

theorem clean_of_alike {state state' : ParseState} (h : state.Clean)
    (hbuilt : state.built.map (Node.lift d) = state'.built.map (Node.lift e)) :
    state'.Clean := by
  intro node hmem
  have hlift : node.lift e ∈ state.built.map (Node.lift d) :=
    hbuilt ▸ List.mem_map_of_mem hmem
  obtain ⟨other, hother, hsame⟩ := List.mem_map.mp hlift
  rw [← Node.hasError_lift e, ← hsame, Node.hasError_lift]
  exact h other hother

/-- A declaration that ends on a token of its own does the same wherever its input stands. -/
theorem replays (h : ∀ {grammar grammar' : Grammar}, Ended grammar grammar' 0 mode base Unknown
      (body grammar) (body grammar')) : Replays d e fuel tokens body := by
  constructor
  intro state last state' after' hagain hrun hclean _
  have hleft : Ended (.upTo fuel) (.forTokens tokens) 0 mode base Unknown (body (.upTo fuel))
      (body (.forTokens tokens)) := h
  obtain ⟨after, hafter, hlt, hsync⟩ := hleft.sync hagain hrun hclean
  refine ⟨base, after, hsync, hlt, ?_⟩
  have hself : Ended (.forTokens tokens) (.forTokens tokens) 0 mode base Unknown
      (body (.forTokens tokens)) (body (.forTokens tokens)) := h
  have hmatched := hleft.matched hsync hlt (.inr ⟨last, hrun, Nat.le_of_eq hafter⟩)
  have hfuel := hself.terminates hagain.enough
  rw [hrun] at hmatched
  generalize hrun' : body (.forTokens tokens) state' = outcome at hmatched hfuel
  cases hmatched with
  | outOfFuel' => exact absurd rfl hfuel
  | @ok _ last' hlast =>
    obtain ⟨left, right, hrest, hrest', hstretch, hbuilt⟩ := hlast
    have hleft : left = [] := by
      have hlength := congrArg List.length hrest
      rw [List.length_append] at hlength
      exact List.length_eq_zero_iff.mp (by omega)
    subst hleft
    rw [hstretch.alike.nil_left, List.nil_append] at hrest'
    have hends := hself.endsOn (Grammar.upTo_advances _ 0) Grammar.upTo_block_endsOn trivial hrun'
      (.inl (clean_of_alike hclean hbuilt))
    have hfollows := (hself.alone.advances (Grammar.upTo_advances _ 0) trivial hrun').1
    exact ⟨last', rfl, hrest', hbuilt, hends.trailing, hfollows.textEnd⟩

end Ended

/-! ## Choices -/

namespace Replays

variable {d e fuel tokens : Nat} {yes no : Grammar → Production}

theorem ifAhead {look : List Lexeme → Bool} (hlook : Steady Unknown look)
    (hyes : Replays d e fuel tokens yes) (hno : Replays d e fuel tokens no) :
    Replays d e fuel tokens fun grammar => .ifAhead look (yes grammar) (no grammar) := by
  constructor
  intro state last state' after' hagain hrun hclean hdelimited
  simp only [Production.ifAhead] at hrun ⊢
  by_cases hl : look state.rest = true
  · rw [if_pos hl] at hrun
    obtain ⟨base, after, hsync, hlt, last', hrun', hreplayed⟩ :=
      hyes.replay hagain hrun hclean hdelimited
    refine ⟨base, after, hsync, hlt, last', ?_, hreplayed⟩
    rw [if_pos (hlook.agree hsync hlt trivial ▸ hl), hrun']
  · rw [if_neg hl] at hrun
    obtain ⟨base, after, hsync, hlt, last', hrun', hreplayed⟩ :=
      hno.replay hagain hrun hclean hdelimited
    refine ⟨base, after, hsync, hlt, last', ?_, hreplayed⟩
    rw [if_neg (hlook.agree hsync hlt trivial ▸ hl), hrun']

theorem chooseBy {α : Type} {key : List Lexeme → α} {select : Grammar → α → Production}
    (hkey : Steady Unknown key)
    (hselect : ∀ value, Replays d e fuel tokens fun grammar => select grammar value) :
    Replays d e fuel tokens fun grammar => .choose fun rest => select grammar (key rest) := by
  constructor
  intro state last state' after' hagain hrun hclean hdelimited
  obtain ⟨base, after, hsync, hlt, last', hrun', hreplayed⟩ :=
    (hselect (key state.rest)).replay hagain hrun hclean hdelimited
  refine ⟨base, after, hsync, hlt, last', ?_, hreplayed⟩
  show select _ (key state'.rest) state' = _
  rw [← hkey.agree hsync hlt trivial]
  exact hrun'

theorem orElse {first second : Grammar → Production} (hfirst : Replays d e fuel tokens first)
    (hsecond : Replays d e fuel tokens second)
    (hfails : ∀ {state last state' last' : ParseState} {after' : List Lexeme},
      Again d e tokens state last state' after' → second (.upTo fuel) state = .ok last →
      last.Clean → last.Delimited → first (.upTo fuel) state = .error .mismatch →
      second (.forTokens tokens) state' = .ok last' →
      first (.forTokens tokens) state' = .error .mismatch) :
    Replays d e fuel tokens fun grammar => .orElse (first grammar) (second grammar) := by
  constructor
  intro state last state' after' hagain hrun hclean hdelimited
  simp only [Production.orElse] at hrun ⊢
  cases houtcome : first (.upTo fuel) state with
  | ok between =>
    rw [houtcome] at hrun
    obtain ⟨base, after, hsync, hlt, last', hrun', hreplayed⟩ :=
      hfirst.replay hagain (houtcome.trans hrun) hclean hdelimited
    exact ⟨base, after, hsync, hlt, last', by rw [hrun'], hreplayed⟩
  | error stop =>
    cases stop with
    | outOfFuel => rw [houtcome] at hrun; cases hrun
    | mismatch =>
      rw [houtcome] at hrun
      obtain ⟨base, after, hsync, hlt, last', hrun', hreplayed⟩ :=
        hsecond.replay hagain hrun hclean hdelimited
      refine ⟨base, after, hsync, hlt, last', ?_, hreplayed⟩
      rw [hfails hagain hrun hclean hdelimited houtcome hrun']
      exact hrun'

/-- What never ends on a token of its own is left out. -/
theorem of_not_delimited {body : Grammar → Production}
    (h : ∀ {grammar : Grammar} {state last : ParseState}, body grammar state = .ok last →
      ¬ last.Delimited) : Replays d e fuel tokens body :=
  ⟨fun _ hrun _ hdelimited => absurd hdelimited (h hrun)⟩

end Replays

/-- An outcome beside a mismatch is a mismatch. -/
theorem Matched.eq_mismatch {d e : Nat} {pending : List Closer} {after after' : List Lexeme}
    {outcome : Except Stop ParseState}
    (h : Matched d e pending after after' (.error .mismatch) outcome)
    (hfuel : outcome ≠ .error .outOfFuel) : outcome = .error .mismatch := by
  cases h with
  | mismatch => rfl
  | outOfFuel' => exact absurd rfl hfuel

namespace Ended

variable {d e fuel tokens : Nat} {first : Grammar → Production}

/-- A declaration that does not match before a semicolon does not match in an alike input. -/
theorem fails {mode : Mode} {base : List Closer} (h : ∀ {grammar grammar' : Grammar},
      Ended grammar grammar' 0 mode base Unknown (first grammar) (first grammar'))
    {state state' : ParseState} {after after' : List Lexeme}
    (hsync : Sync d e [.semicolon] after after' state state')
    (hlt : after.length < state.rest.length) (henough : state'.rest.length ≤ tokens)
    (hrun : first (.upTo fuel) state = .error .mismatch) :
    first (.forTokens tokens) state' = .error .mismatch := by
  have hleft : Ended (.upTo fuel) (.forTokens tokens) 0 mode base Unknown (first (.upTo fuel))
      (first (.forTokens tokens)) := h
  have hself : Ended (.forTokens tokens) (.forTokens tokens) 0 mode base Unknown
      (first (.forTokens tokens)) (first (.forTokens tokens)) := h
  have hfuel := hself.terminates henough
  rcases hleft.mode_eq with ⟨rfl, rfl⟩ | ⟨rfl, rfl⟩
  · have hmatched := hleft.matched hsync hlt (.inl (List.cons_ne_nil _ _))
    rw [hrun] at hmatched
    exact hmatched.eq_mismatch hfuel
  · -- one that ends on a brace stays before the semicolon, too
    have hmatched : Matched d e [.semicolon] after after' (first (.upTo fuel) state)
        (first (.forTokens tokens) state') :=
      hleft.alone.lockstep (Grammar.upTo_advances fuel 0) (Grammar.upTo_builds fuel 0)
        (Grammar.upTo_lockstep fuel _ 0) trivial hsync hlt trivial
        (.inl (List.cons_ne_nil _ _))
    rw [hrun] at hmatched
    exact hmatched.eq_mismatch hfuel

end Ended

namespace Production

theorem isAt_unique {input : List Lexeme} {n : Nat} {text other : String}
    (h : Lookahead.isAt input n text = true) (hne : text ≠ other) :
    Lookahead.isAt input n other = false := by
  unfold Lookahead.isAt at h ⊢
  cases htoken : Lookahead.token? input n with
  | none => rfl
  | some token =>
    rw [htoken, Option.any_some] at h
    rw [Option.any_some]
    by_contra hother
    exact hne ((Token.text_of_is h).symm.trans (Token.text_of_is (by simpa using hother)))

/-- What follows a signature tells a definition from a declaration. -/
theorem declaredFunction_of_definedFunction {grammar : Grammar} {depth : Nat}
    {state last : ParseState} (h : definedFunction grammar depth state = .ok last) :
    declaredFunction grammar depth state = .error .mismatch := by
  simp only [declaredFunction, definedFunction, inScope_apply, seq_apply] at h ⊢
  cases hattributes : attributes state.flush.opened with
  | error stop => rw [hattributes] at h; cases h
  | ok between =>
    rw [hattributes] at h
    simp only [Except.bind, enclose_apply, node_apply, seq_apply] at h ⊢
    cases hsignature : signature grammar depth between.flush.opened with
    | error stop => rw [hsignature] at h; cases h
    | ok inner =>
      rw [hsignature] at h
      simp only [guard] at h
      by_cases hbrace : Lookahead.isAt inner.rest 0 "\x7b" = true
      · have hsemicolon : Lookahead.isAt inner.rest 0 ";" = false :=
          isAt_unique hbrace (by decide)
        simp only [expect, ParseState.sees, hsemicolon]
        rfl
      · simp only [hbrace] at h
        cases h

end Production

/-! ## Declarations of a file -/

namespace Replays

variable {d e fuel tokens : Nat}

theorem attributedFunction :
    Replays d e fuel tokens (Production.attributedFunction · 0) := by
  have heq : (Production.attributedFunction · 0) = fun grammar =>
      Production.orElse (Production.declaredFunction grammar 0)
        (Production.definedFunction grammar 0) :=
    funext fun grammar => Production.attributedFunction_eq grammar 0
  rw [heq]
  exact orElse (Ended.replays .declaredFunction) (Ended.replays .definedFunction)
    fun _ _ _ _ _ hrun' => Production.declaredFunction_of_definedFunction hrun'

/-- The stretch of a variable declaration is closed by a semicolon. -/
theorem sync_variables {state last state' : ParseState} {after' : List Lexeme}
    (hagain : Again d e tokens state last state' after')
    (hrun : Production.variableStatement (.upTo fuel) 0 state = .ok last)
    (hclean : last.Clean) :
    ∃ after, after.length < state.rest.length ∧
      Sync d e [.semicolon] after after' state state' := by
  have hvariables : Ended (.upTo fuel) (.forTokens tokens) 0 .inner [.semicolon] Unknown
      (Production.variableStatement (.upTo fuel) 0)
      (Production.variableStatement (.forTokens tokens) 0) := .variableStatement
  obtain ⟨after, -, hlt, hsync⟩ := hvariables.sync hagain hrun hclean
  exact ⟨after, hlt, hsync⟩

theorem structuredOrVariables : Replays d e fuel tokens fun grammar =>
    .orElse (Production.structuredStatement grammar 0)
      (Production.variableStatement grammar 0) := by
  refine orElse (Ended.replays .structuredStatement) (Ended.replays .variableStatement) ?_
  intro state last state' last' after' hagain hrun hclean _ hmismatch _
  obtain ⟨after, hlt, hsync⟩ := sync_variables hagain hrun hclean
  have hfails : ∀ {grammar grammar' : Grammar}, Ended grammar grammar' 0 _ _ Unknown
      (Production.structuredStatement grammar 0) (Production.structuredStatement grammar' 0) :=
    .structuredStatement
  exact Ended.fails hfails hsync hlt hagain.enough hmismatch

/-- A node is delimited by its kind. -/
theorem delimited_node {kind : NodeKind} {body : Production} {state last : ParseState}
    (hrun : Production.node kind body state = .ok last) (h : last.Delimited) :
    kind.isSelfDelimiting = true := by
  obtain ⟨inner, -, rfl⟩ := Production.node_eq_ok.mp hrun
  exact h _ rfl

theorem attributedFunction_fails {state state' : ParseState} {after after' : List Lexeme}
    (hsync : Sync d e [.semicolon] after after' state state')
    (hlt : after.length < state.rest.length) (henough : state'.rest.length ≤ tokens)
    (hrun : Production.attributedFunction (.upTo fuel) 0 state = .error .mismatch) :
    Production.attributedFunction (.forTokens tokens) 0 state' = .error .mismatch := by
  have hdeclared : ∀ {grammar grammar' : Grammar}, Ended grammar grammar' 0 _ _ Unknown
      (Production.declaredFunction grammar 0) (Production.declaredFunction grammar' 0) :=
    .declaredFunction
  have hdefined : ∀ {grammar grammar' : Grammar}, Ended grammar grammar' 0 _ _ Unknown
      (Production.definedFunction grammar 0) (Production.definedFunction grammar' 0) :=
    .definedFunction
  rw [Production.attributedFunction_eq] at hrun ⊢
  unfold Production.orElse at hrun ⊢
  cases hfirst : Production.declaredFunction (.upTo fuel) 0 state with
  | ok last => rw [hfirst] at hrun; cases hrun
  | error stop =>
    cases stop with
    | outOfFuel => rw [hfirst] at hrun; cases hrun
    | mismatch =>
      rw [hfirst] at hrun
      rw [Ended.fails hdeclared hsync hlt henough hfirst]
      exact Ended.fails hdefined hsync hlt henough hrun

theorem functionOrVariables : Replays d e fuel tokens (Production.functionOrVariables · 0) := by
  have hsequence : Replays d e fuel tokens fun _ => Production.attributeSequence :=
    of_not_delimited fun hrun hdelimited => by cases delimited_node hrun hdelimited
  refine orElse attributedFunction (ifAhead Twin.isAttributeSequence hsequence
    (Ended.replays .variableStatement)) ?_
  intro state last state' last' after' hagain hrun hclean hdelimited hmismatch _
  simp only [Production.ifAhead] at hrun
  split at hrun
  · cases delimited_node hrun hdelimited
  · obtain ⟨after, hlt, hsync⟩ := sync_variables hagain hrun hclean
    exact attributedFunction_fails hsync hlt hagain.enough hmismatch

theorem declarationOf (word : String) :
    Replays d e fuel tokens (Production.declarationOf · 0 word) := by
  unfold Production.declarationOf
  split_ifs
  · exact Ended.replays .resourceGroup
  · exact Ended.replays .resourceGroupSemantic
  · exact structuredOrVariables
  · exact functionOrVariables

theorem ifAt_bump (text : String) (other : Production) :
    Production.ifAt text Production.bump other
      = Production.ifAt text (Production.expect text) other := by
  funext state
  simp only [Production.ifAt, Production.ifAhead]
  split
  · rename_i hsees
    exact (if_pos hsees).symm
  · rfl

/-- Whatever declaration it is, unless it is an include. -/
theorem otherDeclaration : Replays d e fuel tokens fun grammar =>
    .ifAt ";" .bump <|
    .ifAhead Lookahead.isCompilerExtension (Production.compilerExtension grammar 0) <|
    .ifAhead (Lookahead.isAny · ["typealias", "typedef"]) (Production.typeAlias grammar 0) <|
    .choose fun rest => Production.declarationOf grammar 0 (Lookahead.keyword rest) := by
  have hsemicolon : Replays d e fuel tokens fun _ => Production.expect ";" := by
    refine of_not_delimited fun {_ state last} hrun hdelimited => ?_
    obtain ⟨hsees, rfl⟩ := Production.expect_eq_ok.mp hrun
    obtain ⟨first, others, hrest, -⟩ := ParseState.sees_eq_true.mp hsees
    rw [ParseState.bump_cons hrest] at hdelimited
    cases hdelimited _ rfl
  simp only [ifAt_bump]
  exact ifAhead (Steady.isAt Passes.zero _) hsemicolon <|
    ifAhead Steady.isCompilerExtension (Ended.replays .compilerExtension) <|
    ifAhead (Steady.isAny _) (Ended.replays .typeAlias) <|
    chooseBy Steady.keyword fun word => declarationOf word

end Replays

/-! ## Includes -/

namespace Production

/-- The delimiters around the path of an include. -/
def Delimits (opening closing : Lexeme) : Prop :=
  opening.token.text = "\"" ∧ closing.token.is "\"" = true ∨
    opening.token.text = "<" ∧ closing.token.is ">" = true

/-- What taking a token as a leaf puts before what is built. -/
def taken (kind : NodeKind) (lexeme : Lexeme) (built : List Node) : List Node :=
  .leaf kind lexeme.token.start lexeme.token.stop ::
    ((lexeme.leading.map triviaNode).reverse ++ built)

theorem includePath_apply {state : ParseState} {opening path closing : Lexeme}
    {others : List Lexeme} {text : String}
    (hrest : state.rest = opening :: path :: closing :: others)
    (hpath : path.token.kind = .includePath) (hclosing : closing.token.is text = true) :
    includePath text state = .ok { state with
      built := taken .token closing (taken .includeFile path (taken .token opening state.built))
      rest := others } := by
  have hopened : state.bump = { state with
      built := taken .token opening state.built
      rest := path :: closing :: others } := bump_cons hrest
  have hbumped : state.bump.bumpAs .includeFile = { state with
      built := taken .includeFile path (taken .token opening state.built)
      rest := closing :: others } := by
    rw [hopened]
    exact bumpAs_cons .includeFile rfl
  have hguard : (Lookahead.kind? state.bump.rest 0 == some .includePath) = true := by
    rw [hopened]
    simp [Lookahead.kind?, Lookahead.token?, hpath]
  have hsees : (state.bump.bumpAs .includeFile).sees text = true := by
    rw [hbumped]
    exact hclosing
  simp only [includePath, seq_apply, bump, guard, bumpAs, expect, Except.bind, hguard, hsees,
    if_true]
  rw [hbumped, bump_cons rfl]
  rfl

/-- Conversely, a path is taken only if it is there. -/
theorem includePath_inv {state last : ParseState} {text : String} {opening : Lexeme}
    {more : List Lexeme} (hrest : state.rest = opening :: more)
    (hrun : includePath text state = .ok last) :
    ∃ path closing others, more = path :: closing :: others ∧
      path.token.kind = .includePath ∧ closing.token.is text = true := by
  have hmore : state.bump.rest = more := by rw [bump_cons hrest]
  obtain ⟨opened, hopened, hbehind⟩ := seq_eq_ok.mp hrun
  obtain rfl := Except.ok.inj hopened
  obtain ⟨guarded, hguard, htail⟩ := seq_eq_ok.mp hbehind
  obtain ⟨hpath, rfl⟩ := guard_eq_ok.mp hguard
  obtain ⟨between, hbetween, hclosing⟩ := seq_eq_ok.mp htail
  obtain rfl := Except.ok.inj hbetween
  obtain ⟨hsees, -⟩ := expect_eq_ok.mp hclosing
  rw [hmore] at hpath
  cases more with
  | nil => simp [Lookahead.kind?, Lookahead.token?] at hpath
  | cons path more =>
    rw [bumpAs_cons .includeFile hmore] at hsees
    obtain ⟨closing, others, hcons, his⟩ := sees_eq_true.mp hsees
    refine ⟨path, closing, others, congrArg _ hcons, ?_, his⟩
    simpa [Lookahead.kind?, Lookahead.token?] using hpath

theorem includePathOf_apply {state : ParseState} {opening path closing : Lexeme}
    {others : List Lexeme} (hrest : state.rest = opening :: path :: closing :: others)
    (hpath : path.token.kind = .includePath) (hdelimits : Delimits opening closing) :
    includePathOf opening.token.text state = .ok { state with
      built := taken .token closing (taken .includeFile path (taken .token opening state.built))
      rest := others } := by
  rcases hdelimits with ⟨hopening, hclosing⟩ | ⟨hopening, hclosing⟩
  · rw [hopening]
    exact includePath_apply hrest hpath hclosing
  · rw [hopening]
    exact includePath_apply hrest hpath hclosing

theorem includeStatement_apply {state : ParseState} {first opening path closing : Lexeme}
    {others : List Lexeme} (hrest : state.rest = first :: opening :: path :: closing :: others)
    (hpath : path.token.kind = .includePath) (hdelimits : Delimits opening closing) :
    includeStatement state = .ok (state.flush.close .includeStatement { state.flush with
      built := taken .token closing (taken .includeFile path (taken .token opening
        (taken .token { first with leading := [] } [])))
      rest := others }) := by
  have hflush : state.flush.opened.rest
      = { first with leading := [] } :: opening :: path :: closing :: others := by
    rw [opened_rest, flush_rest, hrest]
    rfl
  have hbump := bump_cons hflush
  have hpathOf := includePathOf_apply (congrArg ParseState.rest hbump) hpath hdelimits
  rw [includeStatement, node_apply, seq_apply]
  simp only [bump, Except.bind, choose]
  have htext : Lookahead.text state.flush.opened.bump.rest 0 = opening.token.text := by
    rw [hbump]
    rfl
  rw [htext, hpathOf, hbump]
  rfl

theorem includeStatement_inv {state last : ParseState} (hrun : includeStatement state = .ok last) :
    ∃ first opening path closing others,
      state.rest = first :: opening :: path :: closing :: others ∧
      path.token.kind = .includePath ∧ Delimits opening closing := by
  rw [includeStatement, node_apply, seq_apply] at hrun
  simp only [bump, Except.bind, choose] at hrun
  cases hrest : state.rest with
  | nil =>
    have hbump : state.flush.opened.bump.rest = [] := by
      rw [bump_nil (by simp [hrest, Lexeme.bare])]
      simp [hrest, Lexeme.bare]
    rw [hbump] at hrun
    cases hrun
  | cons first more =>
    have hflush := flush_opened_rest hrest
    have hbump : state.flush.opened.bump.rest = more := by rw [bump_cons hflush]
    rw [hbump] at hrun
    cases more with
    | nil => cases hrun
    | cons opening more =>
      have htext : Lookahead.text (opening :: more) 0 = opening.token.text := rfl
      rw [htext] at hrun
      cases hinner : includePathOf opening.token.text state.flush.opened.bump with
      | error stop => rw [hinner] at hrun; cases hrun
      | ok inner =>
        unfold includePathOf at hinner
        split_ifs at hinner with hquote hangle
        · obtain ⟨path, closing, others, rfl, hpath, hclosing⟩ := includePath_inv hbump hinner
          exact ⟨first, opening, path, closing, others, rfl, hpath, .inl ⟨hquote, hclosing⟩⟩
        · obtain ⟨path, closing, others, rfl, hpath, hclosing⟩ := includePath_inv hbump hinner
          exact ⟨first, opening, path, closing, others, rfl, hpath, .inr ⟨hangle, hclosing⟩⟩
        · cases hinner

theorem taken_alike {d e : Nat} (kind : NodeKind) {lexeme lexeme' : Lexeme}
    {built built' : List Node} (h : lexeme.lift d = lexeme'.lift e)
    (hbuilt : built.map (Node.lift d) = built'.map (Node.lift e)) :
    (taken kind lexeme built).map (Node.lift d) = (taken kind lexeme' built').map (Node.lift e) := by
  obtain ⟨-, -, hstart, hstop⟩ := Token.lift_eq_iff.mp (Lexeme.token_lift_eq h)
  rw [← Location.lift_eq_iff] at hstart hstop
  simp only [taken, List.map_cons, List.map_append, Node.lift_leaf, hstart, hstop,
    Sync.leading_alike h, hbuilt]

theorem Delimits.of_alike {d e : Nat} {opening closing opening' closing' : Lexeme}
    (h : Delimits opening closing) (hopening : opening.lift d = opening'.lift e)
    (hclosing : closing.lift d = closing'.lift e) : Delimits opening' closing' := by
  obtain ⟨-, htext, -⟩ := Token.lift_eq_iff.mp (Lexeme.token_lift_eq hopening)
  have his : ∀ text, closing.token.is text = closing'.token.is text := by
    intro text
    rw [← Token.is_lift d, Lexeme.token_lift_eq hclosing, Token.is_lift]
  unfold Delimits at h ⊢
  rwa [← htext, ← his, ← his]

end Production

open Production in
/-- An include is parsed the same way wherever it stands. -/
theorem includeStatement_replay {d e tokens : Nat} {state last state' : ParseState}
    {after' : List Lexeme} (hagain : Again d e tokens state last state' after')
    (hrun : includeStatement state = .ok last) :
    ∃ last', includeStatement state' = .ok last' ∧ Replayed d e last state' last' after' := by
  obtain ⟨first, opening, path, closing, others, hrest, hpath, hdelimits⟩ :=
    includeStatement_inv hrun
  rw [includeStatement_apply hrest hpath hdelimits] at hrun
  obtain rfl := Except.ok.inj hrun
  obtain ⟨left, after, right, hsplit, hafter, hrest', halike⟩ := hagain.input
  have hleft : left = [first, opening, path, closing] ∧ after = others :=
    List.append_inj' (hsplit.symm.trans hrest) hafter
  obtain ⟨rfl, rfl⟩ := hleft
  obtain ⟨first', right, rfl, hfirst, halike⟩ := halike.cons_left
  obtain ⟨opening', right, rfl, hopening, halike⟩ := halike.cons_left
  obtain ⟨path', right, rfl, hpathLift, halike⟩ := halike.cons_left
  obtain ⟨closing', right, rfl, hclosing, halike⟩ := halike.cons_left
  rw [halike.nil_left] at hrest'
  have hpath' : path'.token.kind = .includePath :=
    (Token.lift_eq_iff.mp (Lexeme.token_lift_eq hpathLift)).1.symm.trans hpath
  have hflush := state'.flush_follows
  refine ⟨_, includeStatement_apply hrest' hpath' (hdelimits.of_alike hopening hclosing), rfl, ?_,
    hflush.trailing (by simp [hrest', Lexeme.bare]), hflush.textEnd⟩
  have hbare : ({ first with leading := [] } : Lexeme).lift d
      = ({ first' with leading := [] } : Lexeme).lift e := by
    simp only [Lexeme.lift, List.map_nil, Lexeme.token_lift_eq hfirst]
  have hnone : ([] : List Node).map (Node.lift d) = [].map (Node.lift e) := rfl
  have hparts := taken_alike .token hclosing <| taken_alike .includeFile hpathLift <|
    taken_alike .token hopening <| taken_alike .token hbare hnone
  have hnode := Node.ofChildren_alike .includeStatement hparts (List.cons_ne_nil _ _)
  have hbuilt : state.flush.built.map (Node.lift d) = state'.flush.built.map (Node.lift e) := by
    rw [flush_cons hrest, flush_cons hrest', List.map_append, List.map_append,
      Sync.leading_alike hfirst, hagain.built]
  simp only [close, List.map_cons, hnode, hbuilt]

/-- A declaration that ends on a token of its own is parsed the same way wherever it stands. -/
theorem topLevelDeclaration_replay {d e fuel tokens : Nat} {state last state' : ParseState}
    {after' : List Lexeme} (hagain : Again d e tokens state last state' after')
    (hrun : Production.topLevelDeclaration (.upTo fuel) 0 state = .ok last)
    (hclean : last.Clean) (hdelimited : last.Delimited) :
    ∃ last', Production.topLevelDeclaration (.forTokens tokens) 0 state' = .ok last' ∧
      Replayed d e last state' last' after' := by
  have htwin : Twin (.upTo fuel) (.upTo fuel) 0 _ Unknown true [] [] _ _ :=
    .topLevelDeclaration
  have htaken := (htwin.advances (Grammar.upTo_advances fuel 0) trivial hrun).2 rfl
  have hkind : Lookahead.kind? state.rest 0 = Lookahead.kind? state'.rest 0 := by
    obtain ⟨left, after, right, hrest, hafter, hrest', halike⟩ := hagain.input
    cases left with
    | nil => rw [hrest, List.nil_append] at htaken; omega
    | cons first others =>
      obtain ⟨first', others', rfl, hfirst, -⟩ := halike.cons_left
      have hsame := (Token.lift_eq_iff.mp (Lexeme.token_lift_eq hfirst)).1
      simp [hrest, hrest', Lookahead.kind?, Lookahead.token?, hsame]
  unfold Production.topLevelDeclaration at hrun ⊢
  rw [Production.ifAhead] at hrun ⊢
  rw [← hkind]
  split at hrun
  · rename_i hinclude
    rw [if_pos hinclude]
    exact includeStatement_replay hagain hrun
  · rename_i hinclude
    rw [if_neg hinclude]
    obtain ⟨-, -, -, -, hreplayed⟩ :=
      Replays.otherDeclaration.replay hagain hrun hclean hdelimited
    exact hreplayed

end Azsl
