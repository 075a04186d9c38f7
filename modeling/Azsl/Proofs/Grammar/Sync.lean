/-
Azsl.Proofs.Grammar.Sync — two parses at the same place of alike inputs.

Two states are in sync if what they have left starts with alike stretches that close what is
pending, and if the nodes they have built are alike. Every way a state changes keeps two states
in sync as long as it stays inside the stretches.
-/
import Azsl.Proofs.Grammar.Adequacy

namespace Azsl

/-! ## Alike nodes -/

namespace Node

/-- A node without its points, `shift` bytes further on. -/
def lift (shift : Nat) (node : Node) : Node :=
  node.mapLabels (Label.lift shift)

theorem mapLabelsAll_eq_map (f : Label → Label) (nodes : List Node) :
    mapLabelsAll f nodes = nodes.map (mapLabels f) := by
  induction nodes with
  | nil => rfl
  | cons first rest ih => rw [mapLabelsAll, ih, List.map_cons]

theorem lift_mk (shift : Nat) (label : Label) (children : List Node) :
    (mk label children).lift shift = mk (label.lift shift) (children.map (lift shift)) := by
  rw [lift, mapLabels, mapLabelsAll_eq_map]
  rfl

theorem hasError_lift (shift : Nat) (node : Node) :
    (node.lift shift).hasError = node.hasError := by
  cases node
  rfl

theorem kind_lift (shift : Nat) (node : Node) : (node.lift shift).kind = node.kind := by
  cases node
  rfl

theorem start_lift (shift : Nat) (node : Node) :
    (node.lift shift).start = node.start.lift shift := by
  cases node
  rfl

theorem stop_lift (shift : Nat) (node : Node) :
    (node.lift shift).stop = node.stop.lift shift := by
  cases node
  rfl

theorem lift_build (shift : Nat) (kind : NodeKind) (start stop : Location)
    (children : List Node) :
    (build kind start stop children).lift shift
      = build kind (start.lift shift) (stop.lift shift) (children.map (lift shift)) := by
  have hany : children.any hasError = (children.map (lift shift)).any hasError := by
    rw [List.any_map]
    exact congrArg (List.any children) (funext fun node => (hasError_lift shift node).symm)
  rw [build, lift_mk, build, ← hany]
  rfl

theorem lift_leaf (shift : Nat) (kind : NodeKind) (start stop : Location) :
    (leaf kind start stop).lift shift = leaf kind (start.lift shift) (stop.lift shift) :=
  lift_build shift kind start stop []

/-- A node around children starts and ends with them. -/
theorem lift_ofChildren (shift : Nat) (kind : NodeKind) {children : List Node}
    (h : children ≠ []) :
    (ofChildren kind children).lift shift = ofChildren kind (children.map (lift shift)) := by
  obtain ⟨first, hfirst⟩ := Option.ne_none_iff_exists'.mp (mt List.head?_eq_none_iff.mp h)
  obtain ⟨last, hlast⟩ := Option.ne_none_iff_exists'.mp (mt List.getLast?_eq_none_iff.mp h)
  simp only [ofChildren, lift_build, List.head?_map, List.getLast?_map, hfirst, hlast,
    Option.map_some, Option.getD_some, start_lift, stop_lift]

theorem lift_triviaNode (shift : Nat) (token : Token) :
    (ParseState.triviaNode token).lift shift = ParseState.triviaNode (token.lift shift) :=
  lift_leaf ..

end Node

/-! ## Alike strings -/

theorem Location.lift_step {d e : Nat} {a b : Location} (h : a.lift d = b.lift e) (c : Char) :
    (a.step c).lift d = (b.step c).lift e := by
  rw [lift_eq_iff] at h ⊢
  simp only [step]
  omega

theorem Location.lift_advance {d e : Nat} {a b : Location} (h : a.lift d = b.lift e)
    (chars : List Char) : (a.advance chars).lift d = (b.advance chars).lift e := by
  induction chars generalizing a b with
  | nil => exact h
  | cons c rest ih => exact ih (lift_step h c)

namespace Production

theorem escapes_alike {d e : Nat} {a b : Location} (h : a.lift d = b.lift e)
    (chars : List Char) :
    (escapes a chars).map (Node.lift d) = (escapes b chars).map (Node.lift e) := by
  fun_induction escapes a chars generalizing b
  · rename_i here c rest stop ih
    have hstop : stop.lift d = _ := Location.lift_step (Location.lift_step h '\\') c
    rw [escapes, List.map_cons, List.map_cons, Node.lift_leaf, Node.lift_leaf, h, hstop,
      ih hstop]
  · rename_i here c rest hplain ih
    rw [escapes.eq_2 b c rest hplain]
    exact ih (Location.lift_step h c)
  · rfl

theorem stringParts_alike {d e : Nat} {a b : Token} (h : a.lift d = b.lift e) :
    (stringParts a).map (Node.lift d) = (stringParts b).map (Node.lift e) := by
  obtain ⟨-, htext, hstart, hstop⟩ := Token.lift_eq_iff.mp h
  rw [← Location.lift_eq_iff] at hstart hstop
  have hopen := Location.lift_step hstart '"'
  simp only [stringParts, htext, List.map_cons, List.map_append, List.map_nil, Node.lift_leaf,
    hstart, hstop, hopen, escapes_alike hopen, Location.lift_advance hopen]

end Production

/-! ## States in sync -/

/-- Alike stretches of input that close what is pending. -/
structure Stretch (d e : Nat) (pending : List Closer) (left right : List Lexeme) : Prop where
  alike : Alike d e left right
  bounded : Bounded pending left
  sound : SoundInput left

/-- Two states at the same place: what they have left starts with alike stretches, and what they
have built is alike. -/
def Sync (d e : Nat) (pending : List Closer) (after after' : List Lexeme)
    (state state' : ParseState) : Prop :=
  ∃ left right, state.rest = left ++ after ∧ state'.rest = right ++ after' ∧
    Stretch d e pending left right ∧
    state.built.map (Node.lift d) = state'.built.map (Node.lift e)

namespace Stretch

variable {d e : Nat} {pending next : List Closer} {left right : List Lexeme}

theorem bare (h : Stretch d e pending left right) :
    Stretch d e pending (Lexeme.bare left) (Lexeme.bare right) where
  alike := h.alike.bare
  bounded := by
    refine ⟨by rw [Lexeme.tokens_bare]; exact h.bounded.1, fun last hlast => ?_⟩
    cases left with
    | nil => cases hlast
    | cons first others =>
      cases others with
      | nil =>
        obtain rfl := Option.some.inj hlast
        exact h.bounded.2 first rfl
      | cons second more => exact h.bounded.2 last hlast
  sound := by
    intro lexeme hmem
    cases left with
    | nil => cases hmem
    | cons first others =>
      rcases List.mem_cons.mp hmem with rfl | hmem
      · exact h.sound first List.mem_cons_self
      · exact h.sound lexeme (List.mem_cons_of_mem _ hmem)

/-- Behind the first tokens, which turn one stack into another, the stretch goes on. -/
theorem drop (h : Stretch d e pending left right) {count : Nat}
    (hrun : Nesting.run pending (Lexeme.tokens (left.take count)) = some next) :
    Stretch d e next (left.drop count) (right.drop count) where
  alike := h.alike.drop count
  bounded := by
    have hbounded := h.bounded
    rw [← List.take_append_drop count left] at hbounded
    exact hbounded.of_append hrun
  sound lexeme hmem := h.sound lexeme (List.mem_of_mem_drop hmem)

/-- As long as something is pending, the stretch is not over. -/
theorem ne_nil (h : Stretch d e pending left right) (hpending : pending ≠ []) : left ≠ [] :=
  h.bounded.ne_nil hpending

end Stretch

namespace Sync

variable {d e : Nat} {pending next : List Closer} {after after' : List Lexeme}
  {state state' : ParseState}

/-- As long as something is pending, there is a token left in the stretch. -/
theorem length_lt (h : Sync d e pending after after' state state') (hpending : pending ≠ []) :
    after.length < state.rest.length := by
  obtain ⟨left, right, hrest, -, hstretch, -⟩ := h
  have hpos := List.length_pos_iff.mpr (hstretch.ne_nil hpending)
  rw [hrest, List.length_append]
  omega

/-- The next tokens of two states in sync. -/
theorem next_eq (h : Sync d e pending after after' state state')
    (hlt : after.length < state.rest.length) :
    ∃ first others first' others', state.rest = first :: others ++ after ∧
      state'.rest = first' :: others' ++ after' ∧ first.lift d = first'.lift e ∧
      Stretch d e pending (first :: others) (first' :: others') ∧
      state.built.map (Node.lift d) = state'.built.map (Node.lift e) := by
  obtain ⟨left, right, hrest, hrest', hstretch, hbuilt⟩ := h
  cases left with
  | nil => simp [hrest] at hlt
  | cons first others =>
    obtain ⟨first', others', rfl, hfirst, -⟩ := hstretch.alike.cons_left
    exact ⟨first, others, first', others', hrest, hrest', hfirst, hstretch, hbuilt⟩

/-- The numbers of tokens left differ by a constant. -/
theorem length_add (h : Sync d e pending after after' state state') :
    state.rest.length + after'.length = state'.rest.length + after.length := by
  obtain ⟨left, right, hrest, hrest', hstretch, -⟩ := h
  have hlength := hstretch.alike.length_eq
  rw [hrest, hrest', List.length_append, List.length_append]
  omega

theorem isAt_eq (h : Sync d e pending after after' state state')
    (hlt : after.length < state.rest.length) (text : String) :
    state.sees text = state'.sees text := by
  obtain ⟨first, others, first', others', hrest, hrest', hfirst, -, -⟩ := h.next_eq hlt
  have htoken := Lexeme.token_lift_eq hfirst
  have his : first.token.is text = first'.token.is text := by
    rw [← Token.is_lift d, htoken, Token.is_lift]
  simp only [ParseState.sees, Lookahead.isAt, Lookahead.token?, hrest, hrest',
    List.cons_append, List.getElem?_cons_zero, Option.map_some, Option.any_some, his]

theorem leading_alike {first first' : Lexeme} (h : first.lift d = first'.lift e) :
    (first.leading.map ParseState.triviaNode).reverse.map (Node.lift d)
      = (first'.leading.map ParseState.triviaNode).reverse.map (Node.lift e) := by
  simp only [Lexeme.lift, Lexeme.mk.injEq] at h
  have hlift : ∀ (shift : Nat) (tokens : List Token),
      (tokens.map ParseState.triviaNode).map (Node.lift shift)
        = (tokens.map (Token.lift shift)).map ParseState.triviaNode := by
    intro shift tokens
    rw [List.map_map, List.map_map]
    exact List.map_congr_left fun token _ => Node.lift_triviaNode shift token
  rw [List.map_reverse, List.map_reverse, hlift, hlift, h.1]

/-- Trivia before the next token is alike. -/
theorem flush (h : Sync d e pending after after' state state')
    (hlt : after.length < state.rest.length) :
    Sync d e pending after after' state.flush state'.flush := by
  obtain ⟨first, others, first', others', hrest, hrest', hfirst, hstretch, hbuilt⟩ :=
    h.next_eq hlt
  refine ⟨_, _, ?_, ?_, hstretch.bare, ?_⟩
  · rw [ParseState.flush_rest, hrest]
    rfl
  · rw [ParseState.flush_rest, hrest']
    rfl
  · rw [ParseState.flush_cons hrest, ParseState.flush_cons hrest']
    rw [List.map_append, List.map_append, leading_alike hfirst, hbuilt]

theorem opened (h : Sync d e pending after after' state state') :
    Sync d e pending after after' state.opened state'.opened := by
  obtain ⟨left, right, hrest, hrest', hstretch, -⟩ := h
  exact ⟨left, right, hrest, hrest', hstretch, rfl⟩

/-- Other nodes in place of those that are built. -/
theorem rebuilt {other other' : ParseState} (h : Sync d e pending after after' state state')
    (hrest : other.rest = state.rest) (hrest' : other'.rest = state'.rest)
    (hbuilt : other.built.map (Node.lift d) = other'.built.map (Node.lift e)) :
    Sync d e pending after after' other other' := by
  obtain ⟨left, right, hleft, hright, hstretch, -⟩ := h
  exact ⟨left, right, hrest.trans hleft, hrest'.trans hright, hstretch, hbuilt⟩

theorem built_eq (h : Sync d e pending after after' state state') :
    state.built.map (Node.lift d) = state'.built.map (Node.lift e) := by
  obtain ⟨_, _, _, _, _, hbuilt⟩ := h
  exact hbuilt

end Sync

/-- Nodes around alike children are alike. -/
theorem Node.ofChildren_alike {d e : Nat} (kind : NodeKind) {built built' : List Node}
    (h : built.map (Node.lift d) = built'.map (Node.lift e)) (hne : built ≠ []) :
    (Node.ofChildren kind built.reverse).lift d = (Node.ofChildren kind built'.reverse).lift e := by
  have hne' : built' ≠ [] := by
    rintro rfl
    exact hne (List.map_eq_nil_iff.mp h)
  rw [lift_ofChildren d kind (by simpa using hne), lift_ofChildren e kind (by simpa using hne'),
    List.map_reverse, List.map_reverse, h]

namespace Sync

variable {d e : Nat} {pending next : List Closer} {after after' : List Lexeme}
  {state state' inner inner' : ParseState}

theorem close (kind : NodeKind) (hinner : Sync d e pending after after' inner inner')
    (hbuilt : state.built.map (Node.lift d) = state'.built.map (Node.lift e))
    (hne : inner.built ≠ []) :
    Sync d e pending after after' (state.close kind inner) (state'.close kind inner') := by
  refine hinner.rebuilt rfl rfl ?_
  simp only [ParseState.close, List.map_cons, hbuilt,
    Node.ofChildren_alike kind hinner.built_eq hne]

theorem enclosed (kind : NodeKind) (h : Sync d e pending after after' state state')
    (hne : state.built ≠ []) :
    Sync d e pending after after' (state.enclosed kind) (state'.enclosed kind) := by
  refine h.rebuilt rfl rfl ?_
  simp only [ParseState.enclosed, List.map_cons, List.map_nil,
    Node.ofChildren_alike kind h.built_eq hne]

/-- Taking tokens inside the stretch. -/
theorem bumpJoined (kind : NodeKind) {count : Nat} {left right : List Lexeme}
    (hrest : state.rest = left ++ after) (hrest' : state'.rest = right ++ after')
    (hstretch : Stretch d e pending left right)
    (hbuilt : state.built.map (Node.lift d) = state'.built.map (Node.lift e))
    (hcount : count < left.length)
    (hrun : Nesting.run pending (Lexeme.tokens (left.take (count + 1))) = some next) :
    Sync d e next after after' (state.bumpJoined count kind) (state'.bumpJoined count kind) := by
  have hlength := hstretch.alike.length_eq
  have hdrop := hstretch.drop hrun
  have htake := hstretch.alike.take (count + 1)
  cases left with
  | nil => simp at hcount
  | cons first others =>
    obtain ⟨first', others', rfl, hfirst, -⟩ := hstretch.alike.cons_left
    simp only [List.length_cons] at hcount hlength
    have hsplit : state.rest = first :: others.take count ++ (others.drop count ++ after) := by
      rw [hrest, List.cons_append, List.cons_append, ← List.append_assoc, List.take_append_drop]
    have hsplit' : state'.rest
        = first' :: others'.take count ++ (others'.drop count ++ after') := by
      rw [hrest', List.cons_append, List.cons_append, ← List.append_assoc, List.take_append_drop]
    have hlen : (others.take count).length = count := by rw [List.length_take]; omega
    have hlen' : (others'.take count).length = count := by rw [List.length_take]; omega
    rw [ParseState.bumpJoined_append kind hsplit hlen,
      ParseState.bumpJoined_append kind hsplit' hlen']
    have hlast : (((first :: others.take count).getLast (by simp)).lift d)
        = (((first' :: others'.take count).getLast (by simp)).lift e) := by
      have := congrArg List.getLast? htake
      rw [List.take_succ_cons, List.take_succ_cons, List.getLast?_map, List.getLast?_map,
        List.getLast?_eq_some_getLast (by simp), List.getLast?_eq_some_getLast (by simp)] at this
      exact Option.some.inj this
    obtain ⟨-, -, hstart, -⟩ := Token.lift_eq_iff.mp (Lexeme.token_lift_eq hfirst)
    obtain ⟨-, -, -, hstop⟩ := Token.lift_eq_iff.mp (Lexeme.token_lift_eq hlast)
    rw [← Location.lift_eq_iff] at hstart hstop
    refine ⟨others.drop count, others'.drop count, rfl, rfl, by simpa using hdrop, ?_⟩
    simp only [List.map_cons, List.map_append, Node.lift_leaf, hstart, hstop,
      leading_alike hfirst, hbuilt]

/-- Taking one token inside the stretch. -/
theorem bump (h : Sync d e pending after after' state state')
    (hlt : after.length < state.rest.length)
    (hstep : ∀ first ∈ state.rest.head?, Nesting.step pending first.token = some next) :
    Sync d e next after after' state.bump state'.bump := by
  obtain ⟨first, others, first', others', hrest, hrest', -, hstretch, hbuilt⟩ := h.next_eq hlt
  refine bumpJoined .token hrest hrest' hstretch hbuilt (by simp) ?_
  have hfirst := hstep first (by rw [hrest]; rfl)
  simp [Lexeme.tokens, Nesting.run_cons, hfirst]

/-- Taking a token that is ahead. -/
theorem bumpAt {text : String} (h : Sync d e pending after after' state state')
    (hlt : after.length < state.rest.length) (hsees : state.sees text = true)
    (hact : Nesting.act pending (.ofText text) = some next) :
    Sync d e next after after' state.bump state'.bump := by
  refine h.bump hlt fun first hfirst => ?_
  have hfirst' : state.rest[0]? = some first := by rwa [← List.head?_eq_getElem?]
  simp only [ParseState.sees, Lookahead.isAt, Lookahead.token?, hfirst', Option.map_some,
    Option.any_some] at hsees
  rw [Nesting.step, Token.role_of_is hsees, hact]

/-- Taking some tokens inside the stretch. -/
theorem bumpMany {count : Nat} {left right : List Lexeme} (hrest : state.rest = left ++ after)
    (hrest' : state'.rest = right ++ after') (hstretch : Stretch d e pending left right)
    (hbuilt : state.built.map (Node.lift d) = state'.built.map (Node.lift e))
    (hcount : count ≤ left.length)
    (hrun : Nesting.run pending (Lexeme.tokens (left.take count)) = some next) :
    Sync d e next after after' (state.bumpMany count) (state'.bumpMany count) := by
  induction count generalizing state state' left right pending with
  | zero =>
    obtain rfl := Option.some.inj hrun
    exact ⟨left, right, hrest, hrest', hstretch, hbuilt⟩
  | succ count ih =>
    cases left with
    | nil => simp at hcount
    | cons first others =>
      rw [List.take_succ_cons] at hrun
      obtain ⟨between, hstep, hrunRest⟩ := Option.bind_eq_some_iff.mp hrun
      have hsync : Sync d e between after after' state.bump state'.bump :=
        bump ⟨_, _, hrest, hrest', hstretch, hbuilt⟩
          (by rw [hrest, List.length_append, List.length_cons]; omega)
          (by simp [hrest, hstep])
      obtain ⟨left', right', hleft, hright, hstretch', hbuilt'⟩ := hsync
      have hothers : left' = others := by
        have hrestBump := congrArg ParseState.rest (ParseState.bump_cons hrest)
        rw [hleft] at hrestBump
        exact List.append_cancel_right hrestBump
      subst hothers
      exact ih hleft hright hstretch' hbuilt' (by simpa using hcount) hrunRest

end Sync

/-! ## Passing over input inside braces -/

namespace Recovery

theorem act_closes {closer : Closer} {inside below stack : List Closer}
    (hne : inside = [] → closer ≠ .brace)
    (h : Nesting.act (inside ++ .brace :: below) (.closes closer) = some stack) :
    ∃ inside', inside = closer :: inside' ∧ stack = inside' ++ .brace :: below := by
  simp only [Nesting.act] at h
  split_ifs at h with hhead
  cases inside with
  | nil =>
    obtain rfl := Option.some.inj hhead
    exact absurd rfl (hne rfl)
  | cons first inside' =>
    obtain rfl := Option.some.inj hhead
    exact ⟨inside', rfl, (Option.some.inj h).symm⟩

/-- Only punctuation opens or closes anything. -/
theorem step_of_ne_punct {token : Token} (hsound : token.Sound) (hkind : token.kind ≠ .punct)
    {pending next : List Closer} (hstep : Nesting.step pending token = some next) :
    next = pending := by
  by_cases hunknown : token.kind = .unknown ∧ token.text = "\""
  · have hrole : token.role = .stray := by simp [Token.role, hunknown]
    rw [Nesting.step, hrole] at hstep
    cases hstep
  · have hrole : token.role = .plain := by
      by_cases hword : token.kind = .word
      · rw [Token.role, if_pos (.inl hword)]
        exact hsound hword
      · rw [Token.role, if_neg (by simp [hword, hkind]), if_neg hunknown]
    rw [Nesting.step_plain hrole] at hstep
    exact (Option.some.inj hstep).symm

/-- The number of open brackets that recovery keeps is the height of the stack above the brace it
stands in. -/
theorem depthAfter_eq {token : Token} (hsound : token.Sound) {inside below stack : List Closer}
    (hinside : .semicolon ∉ inside) (hbrace : inside = [] → token.is "\x7d" = false)
    (hstep : Nesting.step (inside ++ .brace :: below) token = some stack) :
    depthAfter token inside.length = none ∧ stack = .brace :: below ∨
      ∃ inside', .semicolon ∉ inside' ∧ depthAfter token inside.length = some inside'.length ∧
        stack = inside' ++ .brace :: below := by
  by_cases hkind : token.kind = .punct
  · have hrole : token.role = .ofText token.text := by simp [Token.role, hkind]
    have his : ∀ text, token.text = text → token.is text = true := by
      intro text htext
      simp [Token.is, hkind, htext]
    rw [Nesting.step, hrole] at hstep
    simp only [depthAfter, hkind, if_true]
    unfold Role.ofText at hstep
    split_ifs at hstep with hparen hbracket hopen hparen' hbracket' hclose hends
    · -- an opening bracket
      simp only [hparen, true_or, or_true, if_true]
      exact .inr ⟨.paren :: inside, by simpa using hinside, rfl, (Option.some.inj hstep).symm⟩
    · simp only [hbracket, or_true, if_true]
      exact .inr ⟨.bracket :: inside, by simpa using hinside, rfl, (Option.some.inj hstep).symm⟩
    · simp only [hopen, true_or, if_true]
      exact .inr ⟨.brace :: inside, by simpa using hinside, rfl, (Option.some.inj hstep).symm⟩
    · -- a closing parenthesis or bracket has its opening one inside
      obtain ⟨inside', rfl, rfl⟩ := act_closes (fun _ => by decide) hstep
      refine .inr ⟨inside', fun hmem => hinside (List.mem_cons_of_mem _ hmem), ?_, rfl⟩
      simp [hparen']
    · obtain ⟨inside', rfl, rfl⟩ := act_closes (fun _ => by decide) hstep
      refine .inr ⟨inside', fun hmem => hinside (List.mem_cons_of_mem _ hmem), ?_, rfl⟩
      simp [hbracket']
    · have hne : inside = [] → Closer.brace ≠ .brace := by
        intro hnil
        simp [his _ hclose] at hbrace
        exact absurd hnil hbrace
      obtain ⟨inside', rfl, rfl⟩ := act_closes hne hstep
      have hrest : Closer.semicolon ∉ inside' := fun hmem =>
        hinside (List.mem_cons_of_mem _ hmem)
      cases inside' with
      | nil => exact .inl ⟨by simp [hclose], rfl⟩
      | cons second more => exact .inr ⟨second :: more, hrest, by simp [hclose], rfl⟩
    · cases inside with
      | nil =>
        refine .inl ⟨by simp [hends], ?_⟩
        simpa [Nesting.act] using hstep.symm
      | cons first inside' =>
        have hfirst : first ≠ .semicolon := by
          rintro rfl
          exact hinside List.mem_cons_self
        refine .inr ⟨first :: inside', hinside, by simp [hends], ?_⟩
        simpa [Nesting.act, hfirst] using hstep.symm
    · refine .inr ⟨inside, hinside, ?_, (Option.some.inj hstep).symm⟩
      simp [hparen, hbracket, hopen, hparen', hbracket', hclose, hends]
  · exact .inr ⟨inside, hinside, by simp [depthAfter, hkind], step_of_ne_punct hsound hkind hstep⟩

theorem depthAfter_lift {a b : Token} {d e : Nat} (h : a.lift d = b.lift e) (depth : Nat) :
    depthAfter a depth = depthAfter b depth := by
  obtain ⟨hkind, htext, -, -⟩ := Token.lift_eq_iff.mp h
  simp only [depthAfter, hkind, htext]

variable {d e : Nat} {below : List Closer} {left right : List Lexeme}

/-- Recovery inside braces stays inside the braces, and goes as far in an alike stretch. -/
theorem extentFrom_block {inside : List Closer} (hinside : .semicolon ∉ inside)
    (h : Stretch d e (inside ++ .brace :: below) left right) (after after' : List Lexeme) :
    ∃ count ≤ left.length, block.extentFrom inside.length (left ++ after) = count ∧
      block.extentFrom inside.length (right ++ after') = count ∧
      Nesting.run (inside ++ .brace :: below) (Lexeme.tokens (left.take count))
        = some (.brace :: below) := by
  induction left generalizing inside right with
  | nil => exact absurd rfl (h.ne_nil (by simp))
  | cons first others ih =>
    obtain ⟨first', others', rfl, hfirst, -⟩ := h.alike.cons_left
    have htoken := Lexeme.token_lift_eq hfirst
    have his : first.token.is "\x7d" = first'.token.is "\x7d" := by
      rw [← Token.is_lift d, htoken, Token.is_lift]
    have hstops : ∀ (lexeme : Lexeme) (rest : List Lexeme),
        block.stopsBefore (lexeme :: rest) = lexeme.token.is "\x7d" := fun _ _ => rfl
    simp only [List.cons_append, extentFrom, hstops, ← his, ← depthAfter_lift htoken]
    split_ifs with hstop
    · obtain rfl := List.length_eq_zero_iff.mp hstop.1
      exact ⟨0, Nat.zero_le _, rfl, rfl, rfl⟩
    · obtain ⟨stack, hstep, -⟩ := h.bounded.cons
      have hbrace : inside = [] → first.token.is "\x7d" = false := by
        rintro rfl
        simpa using hstop
      have hrun : Nesting.run (inside ++ .brace :: below) (Lexeme.tokens ((first :: others).take 1))
          = some stack := by
        simp [Lexeme.tokens, Nesting.run_cons, hstep]
      obtain ⟨hnone, rfl⟩ | ⟨inside', hinside', hsome, rfl⟩ :=
        depthAfter_eq (h.sound first List.mem_cons_self) hinside hbrace hstep
      · rw [hnone]
        exact ⟨1, by simp, rfl, rfl, hrun⟩
      · obtain ⟨count, hle, hcount, hcount', hnesting⟩ := ih hinside' (h.drop hrun)
        rw [hsome]
        refine ⟨1 + count, by simp; omega, by simp only [hcount], by simpa using hcount', ?_⟩
        rw [Nat.add_comm, List.take_succ_cons, Lexeme.tokens, List.map_cons, Nesting.run_cons,
          hstep]
        exact hnesting

theorem extent_eq_extentFrom {mode : Recovery} {rest : List Lexeme}
    (h : mode.stopsBefore rest = false) : mode.extent rest = mode.extentFrom 0 rest := by
  cases rest with
  | nil => rfl
  | cons next others => simp [extent, extentFrom, h]

end Recovery

/-- Passing over input inside braces keeps two states in sync. -/
theorem Sync.recovery {d e : Nat} {below : List Closer} {after after' : List Lexeme}
    {state state' : ParseState} (h : Sync d e (.brace :: below) after after' state state')
    (hbrace : state.sees "\x7d" = false) :
    Sync d e (.brace :: below) after after' (Recovery.block.run state)
      (Recovery.block.run state') := by
  have hlt := h.length_lt (by simp)
  have hflush := h.flush hlt
  have hstops : Recovery.block.stopsBefore state.flush.rest = false := by
    rw [ParseState.flush_rest]
    exact (Lookahead.isAt_bare _ _ _).trans hbrace
  have hstops' : Recovery.block.stopsBefore state'.flush.rest = false := by
    rw [ParseState.flush_rest]
    exact (Lookahead.isAt_bare _ _ _).trans ((h.isAt_eq hlt _).symm.trans hbrace)
  obtain ⟨left, right, hrest, hrest', hstretch, hbuilt⟩ := h.flush hlt
  have hinside : Stretch d e ([] ++ .brace :: below) left right := hstretch
  obtain ⟨count, hle, hcount, hcount', hrun⟩ :=
    Recovery.extentFrom_block (by simp) hinside after after'
  have hextent : Recovery.block.extent state.flush.rest = count := by
    rw [Recovery.extent_eq_extentFrom hstops, hrest]
    exact hcount
  have hextent' : Recovery.block.extent state'.flush.rest = count := by
    rw [Recovery.extent_eq_extentFrom hstops', hrest']
    exact hcount'
  have hpos : 0 < count := by
    rw [← hextent]
    refine Recovery.extent_pos .block ?_
    rw [hrest]
    exact List.append_ne_nil_of_left_ne_nil (hstretch.ne_nil (by simp)) _
  simp only [Recovery.run, hextent, hextent']
  refine close .error (bumpMany hrest hrest' hstretch rfl hle hrun) hbuilt ?_
  refine ParseState.bumpMany_grows count _ (.inr ?_)
  have hlength := congrArg List.length (ParseState.tokens_bumpMany count state.flush.opened)
  have hleft : left.length ≤ state.flush.rest.length := by
    rw [hrest, List.length_append]
    omega
  simp only [Lexeme.tokens, List.length_map, List.length_drop, ParseState.opened_rest] at hlength
  rw [hlength, ParseState.opened_rest]
  omega

end Azsl
