/-
Azsl.Proofs.Parse.Delimited — what follows a declaration does not matter to it.

A declaration that ends on a token of its own and has no error is the same declaration before any
other input, or before none. `topLevelDeclaration_replay` already says that the runs go side by
side and that their nodes stand at the same bytes. The points are the same because the tokens have
theirs from one text: building the nodes anew at these points changes neither.
-/
import Azsl.Proofs.Grammar.Yield
import Azsl.Proofs.Parse.Relocate

namespace Azsl

open ParseState

/-! ## Tokens of a text -/

/-- What the lexer says about each of its tokens: the points are those of the text, no word is
spelled like a bracket, and strings have their quotes. -/
structure Token.Cuts (point : Nat → Point) (token : Token) : Prop where
  indexed : token.Indexed point
  sound : token.Sound
  quoted : token.kind = .stringLiteral → token.Quoted

theorem Token.cuts_of_mem_tokenize {chars : List Char} {token : Token}
    (h : token ∈ tokenize chars) : token.Cuts (pointAmong (lineStarts chars)) :=
  ⟨indexed_of_mem_tokenize h, sound_of_mem_tokenize h, (fine_of_mem_tokenize h).quoted⟩

/-- All tokens of an input were cut from one text. -/
def CutInput (point : Nat → Point) (input : List Lexeme) : Prop :=
  ∀ lexeme ∈ input, ∀ token ∈ lexeme.leading ++ [lexeme.token], token.Cuts point

namespace CutInput

variable {point : Nat → Point} {input front others : List Lexeme}

theorem sound (h : CutInput point input) : SoundInput input := fun lexeme hmem =>
  (h lexeme hmem lexeme.token (by simp)).sound

theorem of_append (h : CutInput point (front ++ others)) : CutInput point front :=
  fun lexeme hmem => h lexeme (List.mem_append_left _ hmem)

theorem bare (h : CutInput point input) : CutInput point (Lexeme.bare input) := by
  cases input with
  | nil => exact h
  | cons first others =>
    obtain ⟨hfirst, hothers⟩ := List.forall_mem_cons.mp h
    exact List.forall_mem_cons.mpr ⟨fun token hmem => hfirst token (List.mem_append_right _ hmem),
      hothers⟩

end CutInput

/-- From any token of a text on, the input was cut from the text. -/
theorem Parse.cutInput_drop (chars : List Char) (count : Nat) :
    CutInput (pointAmong (lineStarts chars)) ((initial chars).rest.drop count) := by
  intro lexeme hlexeme token hmem
  refine Token.cuts_of_mem_tokenize ?_
  rw [(Point.initial chars).stream]
  exact List.mem_append_right _ (List.mem_append_left _
    (List.mem_flatMap.mpr ⟨lexeme, List.mem_of_mem_drop hlexeme, hmem⟩))

/-- Nodes without an error that were made of tokens with the points of an index stay as they are
when they are built anew. -/
theorem Yields.relocate_eq {native : Bool} {textEnd : Location} {point : Nat → Point}
    {nodes : List Node} {tokens : List Token} (h : Yields native textEnd nodes tokens)
    (hcuts : ∀ token ∈ tokens, token.Cuts point) (herror : ∀ node ∈ nodes, node.hasError = false) :
    nodes.map (Node.relocate point) = nodes := by
  induction h with
  | nil => rfl
  | trivia _ _ ih =>
    obtain ⟨htoken, hcuts⟩ := List.forall_mem_cons.mp hcuts
    rw [List.map_cons, ih hcuts (List.forall_mem_cons.mp herror).2]
    congr 1
    exact Node.relocate_leaf htoken.indexed.indexed_start htoken.indexed.indexed_stop
  | leaf _ hlast _ _ ih =>
    obtain ⟨hgroup, hcuts⟩ := List.forall_mem_append.mp hcuts
    have hfirst := hgroup _ List.mem_cons_self
    have hlast := hgroup _ (List.mem_of_getLast? hlast)
    rw [List.map_cons, ih hcuts (List.forall_mem_cons.mp herror).2,
      Node.relocate_leaf hfirst.indexed.indexed_start hlast.indexed.indexed_stop]
  | string hkind _ ih =>
    obtain ⟨htoken, hcuts⟩ := List.forall_mem_cons.mp hcuts
    have hparts := Node.relocate_stringParts htoken.indexed (htoken.quoted hkind)
    rw [List.map_cons, ih hcuts (List.forall_mem_cons.mp herror).2,
      Node.relocate_ofChildren _ (by simp [Production.stringParts]) hparts]
  | @composite kind children _ _ _ hkind hne _ _ ih₁ ih₂ =>
    obtain ⟨hinner, hcuts⟩ := List.forall_mem_append.mp hcuts
    obtain ⟨hnode, herror⟩ := List.forall_mem_cons.mp herror
    rw [hasError_ofChildren, Bool.or_eq_false_iff, List.any_eq_false] at hnode
    have hchildren : ∀ child ∈ children, child.hasError = false := by
      simpa using hnode.2
    rw [List.map_cons, ih₂ hcuts herror, Node.relocate_ofChildren _ hne (ih₁ hinner hchildren)]
  | error _ _ _ => simp [hasError_ofChildren] at herror
  | missing _ _ => simp [Node.leaf, Node.build, Node.hasError, Node.label] at herror

/-! ## Other input -/

/-- The same state before other input. -/
def ParseState.withInput (state : ParseState) (rest : List Lexeme) (trailing : List Token)
    (textEnd : Location) : ParseState :=
  { state with rest := rest, trailing := trailing, textEnd := textEnd }

section Input

variable {state : ParseState} {taken after : List Lexeme} {trailing : List Token}
  {textEnd : Location}

/-- Lexemes at the front of an input are there before trivia is taken from the first one, too. -/
theorem Lexeme.exists_of_bare_eq {input left : List Lexeme} (h : bare input = left ++ after)
    (hne : left ≠ []) : ∃ taken, taken ≠ [] ∧ input = taken ++ after ∧ bare taken = left := by
  cases input with
  | nil => simp [bare, hne] at h
  | cons first others =>
    obtain ⟨next, more, rfl⟩ := List.exists_cons_of_ne_nil hne
    obtain ⟨hfirst, hothers⟩ := List.cons.inj h
    exact ⟨first :: more, by simp, congrArg (first :: ·) hothers, by rw [bare, hfirst]⟩

/-- The trivia before the next token is the same before any input that starts with the token. -/
theorem ParseState.flush_withInput {others : List Lexeme} (hne : taken ≠ [])
    (hrest : state.rest = taken ++ others) :
    (state.withInput (taken ++ after) trailing textEnd).flush
      = state.flush.withInput (Lexeme.bare taken ++ after) trailing textEnd := by
  obtain ⟨first, more, rfl⟩ := List.exists_cons_of_ne_nil hne
  rw [flush_cons hrest, withInput, flush_cons rfl]
  rfl

end Input

/-! ## Runs on their own -/

/-- A run from an empty node that built one declaration, without an error and with a token of its
own at its end. -/
structure Apart (tokens : Nat) (state last : ParseState) (node : Node) : Prop where
  opened : state.built = []
  enough : state.rest.length ≤ tokens
  run : Production.topLevelDeclaration (.forTokens tokens) 0 state = .ok last
  built : last.built = [node]
  error : node.hasError = false
  delimited : node.kind.isSelfDelimiting = true

namespace Apart

variable {tokens : Nat} {state last : ParseState} {node : Node} {point : Nat → Point}

theorem clean (h : Apart tokens state last node) : last.Clean := by
  intro other hmem
  rw [h.built] at hmem
  rw [List.mem_singleton.mp hmem, h.error]

theorem delimits (h : Apart tokens state last node) : last.Delimited := by
  intro other hmem
  rw [h.built, List.head?_cons, Option.mem_some_iff] at hmem
  rw [← hmem, h.delimited]

/-- A run takes a stretch at the front of its input and nothing else. -/
theorem taken (h : Apart tokens state last node) (hsound : SoundInput state.rest) :
    ∃ left, left ≠ [] ∧ state.rest = left ++ last.rest ∧
      last = last.withInput last.rest state.trailing state.textEnd := by
  have htwin : Twin (.forTokens tokens) (.forTokens tokens) 0 _ Unknown true [] [] _ _ :=
    .topLevelDeclaration
  have hlt := (htwin.advances (Grammar.upTo_advances _ 0) trivial h.run).2 rfl
  obtain ⟨left, after, hsplit, hafter⟩ : ∃ left after, state.rest = left ++ after ∧
      after.length = last.rest.length :=
    ⟨_, _, (List.take_append_drop (state.rest.length - last.rest.length) state.rest).symm,
      by rw [List.length_drop]; omega⟩
  -- The run is repeated on its own input, to learn how it ends.
  obtain ⟨last', hrun', hreplayed⟩ := topLevelDeclaration_replay
    (Again.refl hsound h.enough hsplit hafter) h.run h.clean h.delimits
  obtain rfl : last = last' := Except.ok.inj (h.run.symm.trans hrun')
  refine ⟨left, ?_, by rw [hreplayed.rest, hsplit], ?_⟩
  · rintro rfl
    rw [hsplit, List.nil_append] at hlt
    omega
  · rw [ParseState.withInput, ← hreplayed.trailing, ← hreplayed.textEnd]

/-- What was built stays as it is when it is built anew at the points of the tokens taken. -/
theorem relocate_eq (h : Apart tokens state last node) {left : List Lexeme}
    (hrest : state.rest = left ++ last.rest)
    (hlast : last = last.withInput last.rest state.trailing state.textEnd)
    (hcuts : CutInput point left) :
    node.relocate point = node := by
  have htwin : Twin (.forTokens tokens) (.forTokens tokens) 0 _ Unknown true [] [] _ _ :=
    .topLevelDeclaration
  have hmade : state.Made false [] := ⟨h.opened ▸ .nil, fun _ _ hnative => by cases hnative⟩
  obtain ⟨taken, hstream, hlastMade, -⟩ := htwin.makes (Grammar.upTo_advances _ 0)
    (Grammar.upTo_builds _ 0) (Grammar.upTo_making _ 0) (fun hnative => by cases hnative) hmade
    trivial h.run
  have htaken : taken = left.flatMap fun lexeme => lexeme.leading ++ [lexeme.token] := by
    rw [hlast, ParseState.stream, ParseState.stream, hrest, List.flatMap_append,
      List.append_assoc] at hstream
    exact (List.append_cancel_right hstream).symm
  have hyields := hlastMade.built
  rw [h.built, List.reverse_singleton, List.nil_append, htaken] at hyields
  refine List.singleton_inj.mp (hyields.relocate_eq (fun token hmem => ?_) fun other hmem => ?_)
  · obtain ⟨lexeme, hlexeme, hmem⟩ := List.mem_flatMap.mp hmem
    exact hcuts lexeme hlexeme token hmem
  · rw [List.mem_singleton.mp hmem, h.error]

/-- Before other input the run takes the same stretch and builds the same node. -/
theorem withInput (h : Apart tokens state last node) (hsound : SoundInput state.rest)
    {left : List Lexeme} (hrest : state.rest = left ++ last.rest)
    (hlast : last = last.withInput last.rest state.trailing state.textEnd)
    (hcuts : CutInput point left)
    {after : List Lexeme} (trailing : List Token) (textEnd : Location) {tokens' : Nat}
    (henough : (left ++ after).length ≤ tokens') :
    Production.topLevelDeclaration (.forTokens tokens') 0
      (state.withInput (left ++ after) trailing textEnd)
        = .ok (last.withInput after trailing textEnd) := by
  have hagain : Again 0 0 tokens' state last (state.withInput (left ++ after) trailing textEnd)
      after := ⟨hsound, rfl, henough, left, last.rest, left, hrest, rfl, rfl, rfl⟩
  obtain ⟨last', hrun', hreplayed⟩ :=
    topLevelDeclaration_replay hagain h.run h.clean h.delimits
  have hbuilt := hreplayed.built
  rw [h.built, List.map_singleton, eq_comm, List.map_eq_singleton_iff] at hbuilt
  obtain ⟨node', hbuilt', hlift⟩ := hbuilt
  have hlast' : last' = last'.withInput after trailing textEnd := by
    rw [ParseState.withInput, ← hreplayed.rest]
    exact congrArg₂ (ParseState.mk last'.built last'.rest) hreplayed.trailing hreplayed.textEnd
  have h' : Apart tokens' (state.withInput (left ++ after) trailing textEnd) last' node' := by
    refine ⟨h.opened, henough, hrun', hbuilt', ?_, ?_⟩
    · rw [← Node.hasError_lift 0, hlift, Node.hasError_lift, h.error]
    · rw [← Node.kind_lift 0, hlift, Node.kind_lift, h.delimited]
  have hnode : node' = node := by
    have hsame := Node.relocate_eq_of_lift_eq point hlift
    have hrest' : last'.rest = after := hreplayed.rest
    have hthere := h'.relocate_eq (by rw [hrest']; rfl) (by rw [hrest']; exact hlast') hcuts
    rwa [hthere, h.relocate_eq hrest hlast hcuts] at hsame
  rw [hrun', hlast', ParseState.withInput, hbuilt', hnode, ← h.built]
  rfl

end Apart

/-! ## Declarations anywhere -/

/-- A declaration that ends on a token of its own and has no error takes some tokens and is the
same declaration, ending on the same token, whatever follows these. -/
theorem topLevelDeclaration_withInput {point : Nat → Point} {tokens : Nat}
    {state last : ParseState} {node : Node}
    (hcuts : CutInput point state.rest)
    (henough : state.rest.length ≤ tokens)
    (hrun : Production.topLevelDeclaration (.forTokens tokens) 0 state = .ok last)
    (hnode : last.built.head? = some node) (herror : node.hasError = false)
    (hkind : node.kind.isSelfDelimiting = true) :
    ∃ taken, state.rest = taken ++ last.rest ∧
      ∀ (after : List Lexeme) (trailing : List Token) (textEnd : Location) (tokens' : Nat),
        (taken ++ after).length ≤ tokens' →
        Production.topLevelDeclaration (.forTokens tokens') 0
          (state.withInput (taken ++ after) trailing textEnd)
            = .ok (last.withInput after trailing textEnd) := by
  have hrooted := Production.Rooted.topLevelDeclaration
  have hne : state.rest ≠ [] := by
    have htwin : Twin (.forTokens tokens) (.forTokens tokens) 0 _ Unknown true [] [] _ _ :=
      .topLevelDeclaration
    have hlt := (htwin.advances (Grammar.upTo_advances _ 0) trivial hrun).2 rfl
    exact List.ne_nil_of_length_pos (by omega)
  -- What was built before the declaration is left alone.
  rw [(hrooted _).apart state] at hrun
  cases hinner : Production.topLevelDeclaration (.forTokens tokens) 0 state.flush.opened with
  | error stop => rw [hinner] at hrun; cases hrun
  | ok inner =>
    rw [hinner] at hrun
    obtain rfl := Except.ok.inj hrun
    obtain ⟨node', hbuilt⟩ := (hrooted _).single hne hinner
    obtain rfl : node' = node := by simpa [onto, hbuilt] using hnode
    have hbare : state.flush.opened.rest = Lexeme.bare state.rest := flush_rest state
    have hapart : Apart tokens state.flush.opened inner node' :=
      ⟨rfl, by rwa [hbare, Lexeme.length_bare], hinner, hbuilt, herror, hkind⟩
    have hbareCuts : CutInput point state.flush.opened.rest := hbare ▸ hcuts.bare
    obtain ⟨left, hleft, hrest, hlast⟩ := hapart.taken hbareCuts.sound
    obtain ⟨taken, htaken, hsplit, rfl⟩ := Lexeme.exists_of_bare_eq (hbare ▸ hrest) hleft
    refine ⟨taken, hsplit, fun after trailing textEnd tokens' henough' => ?_⟩
    have hleftCuts : CutInput point (Lexeme.bare taken) :=
      (hrest ▸ hbareCuts : CutInput point (_ ++ _)).of_append
    have hagain := hapart.withInput hbareCuts.sound hrest hlast hleftCuts trailing textEnd
      (by simpa using henough' : (Lexeme.bare taken ++ after).length ≤ tokens')
    have hopened : (state.withInput (taken ++ after) trailing textEnd).flush.opened
        = state.flush.opened.withInput (Lexeme.bare taken ++ after) trailing textEnd := by
      rw [flush_withInput htaken hsplit]
      rfl
    rw [(hrooted _).apart, hopened, hagain, flush_withInput htaken hsplit]
    rfl

theorem topLevelDeclaration_withInput_int :
    ∃ (last : ParseState) (taken : List Lexeme),
      (Parse.initial "int x; y".toList).rest = taken ++ last.rest ∧
      ∀ (after : List Lexeme) (trailing : List Token) (textEnd : Location) (tokens' : Nat),
        (taken ++ after).length ≤ tokens' →
        Production.topLevelDeclaration (.forTokens tokens') 0
          ((Parse.initial "int x; y".toList).withInput (taken ++ after) trailing textEnd)
            = .ok (last.withInput after trailing textEnd) := by
  obtain ⟨last, node, hrun, hnode, herror, hkind⟩ : ∃ last node,
      Production.topLevelDeclaration (.forTokens 4) 0 (Parse.initial "int x; y".toList) = .ok last ∧
      last.built.head? = some node ∧ node.hasError = false ∧ node.kind.isSelfDelimiting = true :=
    ⟨_, _, rfl, rfl, rfl, rfl⟩
  exact ⟨last, topLevelDeclaration_withInput (Parse.cutInput_drop _ 0) (by decide +kernel) hrun
    hnode herror hkind⟩

end Azsl
