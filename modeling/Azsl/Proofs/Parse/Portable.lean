/-
Azsl.Proofs.Parse.Portable — a declaration means the same wherever its text stands.

A declaration that closes itself and has no error was parsed from a stretch of text that is cut
into the same tokens wherever it stands, as long as parsing comes to a point at its start. So
from any such point the same tokens are taken and the same node is built, moved by as many bytes
as the stretch.
-/
import Azsl.Proofs.Parse.Origin

namespace Azsl

open ParseState

/-! ## Points and cuts -/

namespace Parse

variable {chars : List Char} {past : List Token} {state : ParseState}

theorem Point.ready (h : Point chars past state) :
    ∃ here, state.flush.opened.Parsed here [] ∧ state.flush.opened.Ready here := by
  obtain ⟨past', hflush⟩ := (reads_flush h.parsed).parsed
  obtain ⟨here, -, hopened⟩ := hflush.opened
  obtain ⟨here', hcovers, hready⟩ := hopened
  exact ⟨here, ⟨here', hcovers, hready⟩, hready.ordered.weaken hcovers.le, hready.fine,
    hready.lexemes, hready.trailing⟩

theorem Point.mem_tokenize (h : Point chars past state) {token : Token}
    (hmem : token ∈ state.flush.opened.stream) : token ∈ tokenize chars := by
  obtain ⟨taken, hstream, -, -⟩ := reads_flush h.parsed
  rw [h.stream, hstream]
  exact List.mem_append_right _ (List.mem_append_right _ hmem)

theorem mem_stream {lexeme : Lexeme} (h : lexeme ∈ state.rest) : lexeme.token ∈ state.stream :=
  List.mem_append_left _ (List.mem_flatMap.mpr ⟨lexeme, h, by simp⟩)

theorem Point.sound (h : Point chars past state) : SoundInput state.flush.opened.rest :=
  fun _ hmem => sound_of_mem_tokenize (h.mem_tokenize (mem_stream hmem))

/-- At a point the text may be cut, and the next token stands for the next piece. -/
theorem Point.cut (h : Point chars past state) {first : Lexeme} {others : List Lexeme}
    (hrest : state.rest = first :: others) :
    ∃ row behind piece more, Cut chars row behind ∧ pieces behind = piece :: more ∧
      piece.kind = some first.token.kind ∧
      first.token.start = Location.origin.advance (Piece.text row) ∧
      state.flush.opened.stream = place (Location.origin.advance (Piece.text row))
        (leadsAfter true (Piece.text row)) (pieces behind) := by
  obtain ⟨here, -, hready⟩ := h.parsed
  have hleading : Token.plain first.leading = [] := by
    have htrivia := (hready.lexemes first (by simp [hrest])).1
    exact List.filter_eq_nil_iff.mpr (by simpa using htrivia)
  have htokens : place .origin true (pieces chars) = (past ++ first.leading) ++ first.token ::
      (others.flatMap (fun lexeme => lexeme.leading ++ [lexeme.token]) ++ state.trailing) := by
    rw [List.append_assoc, ← stream_cons hrest]
    exact h.stream
  have hbound : ¬ Token.Awaits (Token.plain (past ++ first.leading)) ∨ first.token.Leads := by
    rw [Token.plain, List.filter_append, ← Token.plain, ← Token.plain, hleading, List.append_nil]
    exact h.bound first.token (Lexeme.tokens others) (by rw [hrest]; rfl)
  obtain ⟨row, behind, piece, more, hcut, hpieces, hkind, hbehind⟩ := cut_before htokens hbound
  refine ⟨row, behind, piece, more, hcut, hpieces, hkind, ?_, ?_⟩
  · rw [hpieces, place_cons_some hkind] at hbehind
    rw [← (List.cons.inj hbehind).1]
  · rw [hbehind, flush_cons hrest]
    rfl

end Parse

/-! ## What a declaration takes -/

/-- Lexemes whose text is cut the same way wherever it stands: no quote among them opens no
string, and the last one closes a declaration or the path of an include. -/
structure Sealed (taken : List Lexeme) : Prop where
  stray : ∀ lexeme ∈ taken, lexeme.token.role ≠ .stray
  closing : ∃ front last c, taken = front ++ [last] ∧ last.token.kind = .punct ∧
    last.token.text.toList = [c] ∧ (Scan.isHard c = true ∨
      c = '"' ∧ ∀ lexeme ∈ taken.tail, lexeme.token.kind ≠ .includeDirective)

theorem Nesting.role_ne_stray {pending next : List Closer} {tokens : List Token}
    (h : run pending tokens = some next) {token : Token} (hmem : token ∈ tokens) :
    token.role ≠ .stray := by
  intro hstray
  obtain ⟨left, right, rfl⟩ := List.append_of_mem hmem
  rw [run_append] at h
  obtain ⟨between, -, hright⟩ := Option.bind_eq_some_iff.mp h
  rw [run_cons, step, hstray] at hright
  cases hright

/-- Input that closes all that is pending is sealed. -/
theorem Bounded.sealed {pending : List Closer} {taken : List Lexeme} (h : Bounded pending taken)
    (hsound : SoundInput taken) (hne : taken ≠ []) : Sealed taken := by
  refine ⟨fun lexeme hmem => Nesting.role_ne_stray h.1 (List.mem_map_of_mem hmem), ?_⟩
  obtain ⟨front, last, rfl⟩ := (List.eq_nil_or_concat' taken).resolve_left hne
  have hfinal := h.2 last (by simp)
  obtain ⟨hkind, htext⟩ := Token.text_of_isFinal hfinal
  have hpunct : last.token.kind = .punct := by
    refine hkind.resolve_left fun hword => ?_
    have hplain := hsound last (by simp) hword
    rw [Token.isFinal, Token.role, if_pos (.inl hword), hplain] at hfinal
    cases hfinal
  rcases htext with htext | htext
  · exact ⟨front, last, ';', rfl, hpunct, by rw [htext]; rfl, .inl rfl⟩
  · exact ⟨front, last, '\x7d', rfl, hpunct, by rw [htext]; rfl, .inl rfl⟩

theorem word_of_mem_tokenize {chars : List Char} {token : Token} (h : token ∈ tokenize chars)
    (hkind : token.kind = .word) : ∃ c ∈ token.text.toList.head?, Scan.isNameChar c = true := by
  obtain ⟨piece, hmem, hpiece, htext, -⟩ := exists_piece_of_mem_place h
  rw [htext]
  exact (fine_of_pieces hmem).word (hkind ▸ hpiece)

/-- The delimiter right before a path is punctuation. -/
theorem Parse.Point.kind_opening {chars : List Char} {past : List Token} {state : ParseState}
    (h : Parse.Point chars past state) {first opening path : Lexeme} {others : List Lexeme}
    (hrest : state.flush.opened.rest = first :: opening :: path :: others)
    (hpath : path.token.kind = .includePath) : opening.token.kind = .punct := by
  obtain ⟨here, -, hready⟩ := h.ready
  obtain ⟨taken, hstream, -, -⟩ := reads_flush h.parsed
  have htokens : place .origin true (pieces chars) = ((past ++ taken) ++ first.leading ++
      [first.token] ++ opening.leading ++ [opening.token] ++ path.leading) ++ path.token ::
        (others.flatMap (fun lexeme => lexeme.leading ++ [lexeme.token]) ++
          state.flush.opened.trailing) := by
    have hall : place .origin true (pieces chars)
        = past ++ (taken ++ state.flush.opened.stream) :=
      h.stream.trans (congrArg (past ++ ·) hstream)
    rw [ParseState.stream, hrest] at hall
    simpa using hall
  obtain ⟨front, token, hbefore, hpunct⟩ := opening_of_path htokens hpath
  cases hleading : path.leading.reverse with
  | nil =>
    rw [List.reverse_eq_nil_iff.mp hleading, List.append_nil] at hbefore
    obtain ⟨-, hlast⟩ := List.append_inj' hbefore rfl
    rwa [List.singleton_inj.mp hlast]
  | cons trivia more =>
    rw [List.reverse_eq_cons_iff.mp hleading, ← List.append_assoc] at hbefore
    obtain ⟨-, hlast⟩ := List.append_inj' hbefore rfl
    have htrivia := (hready.lexemes path (by rw [hrest]; simp)).1 trivia
      (by rw [List.reverse_eq_cons_iff.mp hleading]; simp)
    rw [List.singleton_inj.mp hlast, hpunct] at htrivia
    cases htrivia

/-- The lexemes of an include are sealed. -/
theorem Parse.Point.sealed_include {chars : List Char} {past : List Token} {state : ParseState}
    (h : Parse.Point chars past state) {first opening path closing : Lexeme}
    {others : List Lexeme}
    (hrest : state.flush.opened.rest = first :: opening :: path :: closing :: others)
    (hfirst : first.token.kind = .includeDirective) (hpath : path.token.kind = .includePath)
    (hdelimits : Production.Delimits opening closing) :
    Sealed [first, opening, path, closing] := by
  have hmem : ∀ lexeme ∈ [first, opening, path, closing], lexeme.token ∈ tokenize chars := by
    intro lexeme hlexeme
    refine h.mem_tokenize (Parse.mem_stream ?_)
    rw [hrest]
    exact List.mem_append_left others hlexeme
  have hopening := h.kind_opening hrest hpath
  have hclosing : ∃ c, closing.token.kind = .punct ∧ closing.token.text.toList = [c] ∧
      (c = '"' ∨ c = '>') := by
    have hpunct : ∀ c : Char, Scan.isNameChar c = false → closing.token.text.toList = [c] →
        closing.token.kind = .word ∨ closing.token.kind = .punct →
        closing.token.kind = .punct := by
      intro c hname htext hkind
      refine hkind.resolve_left fun hword => ?_
      obtain ⟨d, hd, hnamed⟩ := word_of_mem_tokenize (hmem closing (by simp)) hword
      obtain rfl : c = d := by simpa [htext] using hd
      rw [hname] at hnamed
      cases hnamed
    rcases hdelimits with ⟨-, his⟩ | ⟨-, his⟩
    · have htext : closing.token.text.toList = ['"'] := by rw [Token.text_of_is his]; rfl
      exact ⟨'"', hpunct '"' (by decide) htext (Token.kind_of_is his), htext, .inl rfl⟩
    · have htext : closing.token.text.toList = ['>'] := by rw [Token.text_of_is his]; rfl
      exact ⟨'>', hpunct '>' (by decide) htext (Token.kind_of_is his), htext, .inr rfl⟩
  obtain ⟨c, hpunct, htext, hc⟩ := hclosing
  refine ⟨fun lexeme hlexeme => ?_, [first, opening, path], closing, c, rfl, hpunct, htext, ?_⟩
  · have hkind : lexeme.token.kind ≠ .unknown := by
      simp only [List.mem_cons, List.not_mem_nil, or_false] at hlexeme
      rcases hlexeme with rfl | rfl | rfl | rfl <;> simp [*]
    unfold Token.role
    split_ifs with hword hstray
    · unfold Role.ofText
      split_ifs <;> simp
    · exact absurd hstray.1 hkind
    · simp
  · refine hc.symm.imp (fun hangle => by rw [hangle]; rfl) fun hquote => ⟨hquote, ?_⟩
    intro lexeme hlexeme
    simp only [List.tail_cons, List.mem_cons, List.not_mem_nil, or_false] at hlexeme
    rcases hlexeme with rfl | rfl | rfl <;> simp [*]

/-- What a run took stands at the front of its own input. -/
theorem Again.refl {tokens : Nat} {state last : ParseState} (hsound : SoundInput state.rest)
    (henough : state.rest.length ≤ tokens) {left after : List Lexeme}
    (hrest : state.rest = left ++ after) (hafter : after.length = last.rest.length) :
    Again 0 0 tokens state last state after :=
  ⟨hsound, rfl, henough, left, after, left, hrest, hafter, hrest, rfl⟩

namespace Parse

/-- The run that a node has its origin in. -/
structure Taken (chars : List Char) (node : Node) (past : List Token) (state last : ParseState)
    (left : List Lexeme) : Prop where
  point : Point chars past state
  run : Production.topLevelDeclaration (.forTokens (initial chars).rest.length) 0
    state.flush.opened = .ok last
  built : last.built = [node]
  rest : state.flush.opened.rest = left ++ last.rest
  trailing : last.trailing = state.flush.opened.trailing
  clean : last.Clean
  delimited : last.Delimited
  sealed : Sealed left

/-- A declaration takes at least one token from the front of its input. -/
theorem exists_left {tokens : Nat} {state last : ParseState}
    (hrun : Production.topLevelDeclaration (.forTokens tokens) 0 state = .ok last) :
    ∃ left after, left ≠ [] ∧ state.rest = left ++ after ∧ after.length = last.rest.length := by
  have htwin : Twin (.forTokens tokens) (.forTokens tokens) 0 _ Unknown true [] [] _ _ :=
    .topLevelDeclaration
  obtain ⟨-, hlt⟩ := htwin.advances (Grammar.upTo_advances _ 0) trivial hrun
  have hlt := hlt rfl
  refine ⟨state.rest.take (state.rest.length - last.rest.length), _, fun hnil => ?_,
    (List.take_append_drop _ _).symm, by rw [List.length_drop]; omega⟩
  have hnone := congrArg List.length hnil
  rw [List.length_take, List.length_nil] at hnone
  omega

/-- What a declaration that closes itself takes at a point is sealed. -/
theorem Point.sealed {chars : List Char} {past : List Token} {state last : ParseState}
    {left after : List Lexeme} {tokens : Nat} (hpoint : Point chars past state)
    (hagain : Again 0 0 tokens state.flush.opened last state.flush.opened after)
    (hrun : Production.topLevelDeclaration (.forTokens tokens) 0 state.flush.opened = .ok last)
    (hclean : last.Clean) (hdelimited : last.Delimited) (hne : left ≠ [])
    (hsplit : state.flush.opened.rest = left ++ after)
    (hafter : after.length = last.rest.length) : Sealed left := by
  unfold Production.topLevelDeclaration at hrun
  rw [Production.ifAhead] at hrun
  split at hrun
  · rename_i hinclude
    obtain ⟨first, opening, path, closing, others, hrest, hpath, hdelimits⟩ :=
      Production.includeStatement_inv hrun
    rw [Production.includeStatement_apply hrest hpath hdelimits] at hrun
    obtain rfl := Except.ok.inj hrun
    have htaken : left = [first, opening, path, closing] ∧ after = others := by
      refine List.append_inj' ?_ hafter
      rw [← hsplit, hrest]
      rfl
    rw [htaken.1]
    refine hpoint.sealed_include hrest ?_ hpath hdelimits
    rw [hrest] at hinclude
    simpa [Lookahead.kind?, Lookahead.token?] using hinclude
  · obtain ⟨base, after₀, ⟨left₀, right₀, hrest₀, hrest₀', hstretch, -⟩, -, -⟩ :=
      Replays.otherDeclaration.replay hagain hrun hclean hdelimited
    have hright : right₀ = left := List.append_cancel_right (hrest₀'.symm.trans hsplit)
    have hsame : left₀ = left ∧ after₀ = after := by
      refine List.append_inj (hrest₀.symm.trans hsplit) ?_
      rw [hstretch.alike.length_eq, hright]
    rw [← hsame.1]
    exact hstretch.bounded.sealed hstretch.sound (by rw [hsame.1]; exact hne)

theorem Origin.taken {chars : List Char} {node : Node} (h : Origin chars node)
    (herror : node.hasError = false) (hkind : node.kind.isSelfDelimiting = true) :
    ∃ past state last left, Taken chars node past state last left := by
  obtain ⟨past, state, last, hpoint, -, henough, hrun, hbuilt⟩ := h
  have hclean : last.Clean := by
    intro other hmem
    rw [hbuilt] at hmem
    rwa [List.mem_singleton.mp hmem]
  have hdelimited : last.Delimited := by
    intro other hmem
    rw [hbuilt, List.head?_cons, Option.mem_some_iff] at hmem
    rwa [← hmem]
  obtain ⟨left, after, hne, hsplit, hafter⟩ := exists_left hrun
  have hlength : state.flush.opened.rest.length ≤ (initial chars).rest.length := by
    rw [opened_rest, flush_rest, Lexeme.length_bare]
    exact henough
  -- The run is repeated on its own input, to learn how it ends.
  have hagain := Again.refl hpoint.sound hlength hsplit hafter
  obtain ⟨last', hrun', hreplayed⟩ := topLevelDeclaration_replay hagain hrun hclean hdelimited
  obtain rfl : last = last' := Except.ok.inj (hrun.symm.trans hrun')
  exact ⟨past, state, last, left, hpoint, hrun, hbuilt, by rw [hreplayed.rest, hsplit],
    hreplayed.trailing, hclean, hdelimited,
    hpoint.sealed hagain hrun hclean hdelimited hne hsplit hafter⟩

/-- The text that a node was parsed from is cut the same way before any other rest. -/
structure Text (before : List Char) (row : List Piece) (left : List Lexeme) : Prop where
  cut : ∀ behind, Cut (Piece.text row ++ behind) row behind
  tokens : ∃ leads, left.flatMap (fun lexeme => lexeme.leading ++ [lexeme.token])
    = place (Location.origin.advance before) leads row
  opening : ∃ piece kind tail, row = piece :: tail ∧ piece.kind = some kind
  closing : ∃ front piece, row = front ++ [piece] ∧ piece.kind = some .punct

/-! ## The pieces of what is taken -/

section Pieces

variable {lexemes : List Lexeme} {row : List Piece} {here : Location} {leads : Bool}
  (hlexemes : ∀ lexeme ∈ lexemes, (∀ token ∈ lexeme.leading, token.kind.isTrivia = true) ∧
    lexeme.token.kind.isTrivia = false)
include hlexemes

/-- A piece that the grammar sees stands for the token of a lexeme. -/
theorem exists_lexeme_of_place
    (hplace : place here leads row
      = lexemes.flatMap fun lexeme => lexeme.leading ++ [lexeme.token])
    {piece : Piece} {kind : TokenKind} (hmem : piece ∈ row) (hpiece : piece.kind = some kind)
    (hkind : kind.isTrivia = false) : ∃ lexeme ∈ lexemes,
      lexeme.token.kind = kind ∧ lexeme.token.text.toList = piece.chars := by
  obtain ⟨token, htoken, rfl, htext⟩ := exists_mem_place hmem hpiece
  rw [hplace] at htoken
  have hplain : token ∈ Lexeme.tokens lexemes := by
    rw [← Lexeme.filter_flatMap hlexemes]
    exact List.mem_filter.mpr ⟨htoken, by simp [hkind]⟩
  obtain ⟨lexeme, hlexeme, rfl⟩ := List.mem_map.mp hplain
  exact ⟨lexeme, hlexeme, rfl, htext⟩

/-- No piece of sealed lexemes is a stray quote. -/
theorem stray_notMem (hsealed : Sealed lexemes)
    (hplace : place here leads row
      = lexemes.flatMap fun lexeme => lexeme.leading ++ [lexeme.token]) :
    Scan.stray ∉ row := by
  intro hmem
  obtain ⟨lexeme, hlexeme, hkind, htext⟩ := exists_lexeme_of_place hlexemes hplace hmem rfl rfl
  refine hsealed.stray lexeme hlexeme ?_
  have hquote : lexeme.token.text = "\"" := String.toList_injective htext
  simp [Token.role, hkind, hquote]

/-- A second include would show among the lexemes behind the first. -/
theorem include_notMem_tail {first : Lexeme} {others : List Lexeme}
    (hfirst : lexemes = first :: others) (hbare : first.leading = [])
    (hnone : ∀ lexeme ∈ others, lexeme.token.kind ≠ .includeDirective)
    {piece : Piece} {kind : TokenKind} {tail : List Piece} (hkind : piece.kind = some kind)
    (hplace : place here leads (piece :: tail)
      = lexemes.flatMap fun lexeme => lexeme.leading ++ [lexeme.token]) (chars : List Char) :
    ⟨some .includeDirective, chars⟩ ∉ tail := by
  subst hfirst
  rw [place_cons_some hkind, List.flatMap_cons, hbare, List.nil_append,
    List.singleton_append] at hplace
  obtain ⟨-, htail⟩ := List.cons.inj hplace
  intro hmem
  obtain ⟨lexeme, hlexeme, hinclude, -⟩ := exists_lexeme_of_place
    (fun lexeme hlexeme => hlexemes lexeme (List.mem_cons_of_mem _ hlexeme)) htail hmem rfl rfl
  exact hnone lexeme hlexeme hinclude

end Pieces

namespace Taken

variable {chars : List Char} {node : Node} {past : List Token} {state last : ParseState}
  {left : List Lexeme} (h : Taken chars node past state last left)
include h

theorem lexemes : ∀ lexeme ∈ left, (∀ token ∈ lexeme.leading, token.kind.isTrivia = true) ∧
    lexeme.token.kind.isTrivia = false := by
  intro lexeme hmem
  obtain ⟨here, -, hready⟩ := h.point.ready
  exact hready.lexemes lexeme (by rw [h.rest]; exact List.mem_append_left _ hmem)

/-- What is taken starts with the next token, without the trivia before it. -/
theorem exists_first : ∃ first others first' left', state.rest = first :: others ∧
    left = first' :: left' ∧ first'.leading = [] := by
  obtain ⟨front, closing, -, hleft, -⟩ := h.sealed.closing
  have hrest := h.rest
  rw [opened_rest, flush_rest] at hrest
  cases left with
  | nil => simp at hleft
  | cons first' left' =>
    cases hstate : state.rest with
    | nil => simp [hstate, Lexeme.bare] at hrest
    | cons first others =>
      rw [hstate] at hrest
      exact ⟨first, others, first', left', rfl, rfl, by rw [← (List.cons.inj hrest).1]⟩

/-- What is taken closes itself, so no path of an include is awaited behind it. -/
theorem closed : Token.Closed (Lexeme.tokens left) := by
  obtain ⟨taken, htaken, hclosed⟩ :=
    Production.Finishes.topLevelDeclaration _ _ _ h.run (.inl h.clean)
  rw [h.rest, Lexeme.tokens, List.map_append] at htaken
  rwa [← List.append_cancel_right htaken] at hclosed

theorem stream_eq : state.flush.opened.stream
    = left.flatMap (fun lexeme => lexeme.leading ++ [lexeme.token]) ++ last.stream := by
  rw [ParseState.stream, h.rest, ← h.trailing, ParseState.stream, List.flatMap_append,
    List.append_assoc]

theorem text : ∃ before row behind,
    chars = before ++ Piece.text row ++ behind ∧ Text before row left := by
  obtain ⟨front, closing, c, hleft, hpunct, htext, hclosing⟩ := h.sealed.closing
  obtain ⟨first, others, first', left', hrest, hfirst, hbare⟩ := h.exists_first
  obtain ⟨row₀, behind₀, piece₀, more₀, hcut₀, hpieces₀, hkind₀, -, hstream⟩ := h.point.cut hrest
  -- The closing token is the last one of the stretch.
  have hflat : left.flatMap (fun lexeme => lexeme.leading ++ [lexeme.token])
      = (front.flatMap (fun lexeme => lexeme.leading ++ [lexeme.token]) ++ closing.leading) ++
        [closing.token] := by
    rw [hleft]
    simp
  have htokens := hstream.symm.trans h.stream_eq
  rw [hflat, List.append_assoc, List.singleton_append] at htokens
  obtain ⟨row, piece, behind, hcut, hplace, hpiece, hchars, -⟩ := cut_behind htokens (by
    rw [← hflat, Token.plain, Lexeme.filter_flatMap h.lexemes]
    exact h.closed.not_awaits)
  rw [← hflat] at hplace
  obtain rfl : piece = ⟨some .punct, [c]⟩ := by
    obtain ⟨kind, inner⟩ := piece
    rw [hpunct] at hpiece
    rw [htext] at hchars
    simp only at hpiece hchars
    rw [hpiece, hchars]
  obtain ⟨tail, hrow⟩ : ∃ tail, row ++ [⟨some .punct, [c]⟩] = piece₀ :: tail := by
    have hall := hcut.pieces_eq.symm.trans hpieces₀
    cases hrow : row ++ [(⟨some .punct, [c]⟩ : Piece)] with
    | nil => simp at hrow
    | cons piece tail =>
      rw [hrow] at hall
      exact ⟨tail, by rw [(List.cons.inj hall).1]⟩
  refine ⟨Piece.text row₀, row ++ [⟨some .punct, [c]⟩], behind, ?_, ?_, ⟨_, hplace.symm⟩,
    ⟨piece₀, _, tail, hrow, hkind₀⟩, row, _, rfl, rfl⟩
  · rw [List.append_assoc, hcut.text_append, hcut₀.text_append]
  · refine hcut.moves (by simp) (hclosing.imp id fun hpath => ⟨hpath.1, ?_⟩)
      (stray_notMem h.lexemes h.sealed hplace)
    rw [hrow] at hplace ⊢
    exact include_notMem_tail h.lexemes hfirst hbare (by rw [hfirst] at hpath; exact hpath.2)
      hkind₀ hplace _

end Taken

end Parse

/-! ## Where a node stands -/

namespace Covers

variable {textEnd : Location} {lo hi : Nat} {nodes : List Node} {tokens : List Token}

theorem start_eq (h : Covers textEnd lo hi nodes tokens)
    (hclean : ∀ node ∈ nodes, node.hasError = false) :
    nodes.head?.map (·.start) = tokens.head?.map (·.start) := by
  induction h with
  | nil => rfl
  | trivia => rfl
  | leaf => rfl
  | string _ hquoted => rw [List.head?_cons, Option.map_some, Node.start_stringNode hquoted]; rfl
  | @composite lo mid hi kind children inner nodes tokens hkind hne _ _ ih _ =>
    have hinner := ih ?_
    · obtain ⟨first, others, rfl⟩ := List.exists_cons_of_ne_nil hne
      cases inner with
      | nil => simp at hinner
      | cons token more => simpa [Node.ofChildren, Node.build, Node.start, Node.label] using hinner
    · have herror := hclean _ List.mem_cons_self
      rw [ParseState.hasError_ofChildren] at herror
      simpa using (Bool.or_eq_false_iff.mp herror).2
  | missing => cases hclean _ List.mem_cons_self

/-- The last of some nodes ends where the last of their tokens does. -/
theorem stop_cons {node : Node} {chunk : List Token}
    (hchunk : chunk.getLast?.map (·.stop) = some node.stop)
    (h : nodes.getLast?.map (·.stop) = tokens.getLast?.map (·.stop)) :
    (node :: nodes).getLast?.map (·.stop) = (chunk ++ tokens).getLast?.map (·.stop) := by
  rw [List.getLast?_cons, List.getLast?_append, Option.map_some]
  cases hnodes : nodes.getLast? with
  | none =>
    rw [hnodes, Option.map_none] at h
    rw [Option.map_eq_none_iff.mp h.symm, Option.none_or, hchunk]
    rfl
  | some last =>
    rw [hnodes, Option.map_some] at h
    obtain ⟨token, htoken, hstop⟩ := Option.map_eq_some_iff.mp h.symm
    rw [htoken, Option.some_or, Option.map_some, hstop]
    rfl

theorem stop_eq (h : Covers textEnd lo hi nodes tokens)
    (hclean : ∀ node ∈ nodes, node.hasError = false) :
    nodes.getLast?.map (·.stop) = tokens.getLast?.map (·.stop) := by
  induction h with
  | nil => rfl
  | @trivia lo hi token nodes tokens _ _ _ _ ih =>
    have hrest := ih fun node hmem => hclean node (List.mem_cons_of_mem _ hmem)
    exact stop_cons (show [token].getLast?.map (·.stop) = _ from rfl) hrest
  | @leaf lo hi kind first more last nodes tokens _ _ hlast _ _ _ ih =>
    have hrest := ih fun node hmem => hclean node (List.mem_cons_of_mem _ hmem)
    exact stop_cons (by rw [hlast]; rfl) hrest
  | @string lo hi token nodes tokens _ hquoted _ _ ih =>
    have hrest := ih fun node hmem => hclean node (List.mem_cons_of_mem _ hmem)
    refine stop_cons (show [token].getLast?.map (·.stop) = _ from ?_) hrest
    rw [Node.stop_stringNode hquoted]
    rfl
  | @composite lo mid hi kind children inner nodes tokens hkind hne _ _ ih₁ ih₂ =>
    have herror := hclean _ List.mem_cons_self
    rw [ParseState.hasError_ofChildren] at herror
    have hinner := ih₁ (by simpa using (Bool.or_eq_false_iff.mp herror).2)
    have hrest := ih₂ fun node hmem => hclean node (List.mem_cons_of_mem _ hmem)
    refine stop_cons ?_ hrest
    have hlast := List.getLast?_eq_some_getLast hne
    rw [← hinner, hlast, Node.stop_ofChildren kind hlast]
    rfl
  | missing => cases hclean _ List.mem_cons_self

end Covers

theorem place_start {here : Location} {leads : Bool} {piece : Piece} {kind : TokenKind}
    {tail : List Piece} (hkind : piece.kind = some kind) :
    (place here leads (piece :: tail)).head?.map (·.start) = some here := by
  rw [place_cons_some hkind]
  rfl

theorem place_stop {here : Location} {leads : Bool} {front : List Piece} {piece : Piece}
    {kind : TokenKind} (hkind : piece.kind = some kind) :
    ∃ last, (place here leads (front ++ [piece])).getLast? = some last ∧ last.kind = kind ∧
      last.stop = here.advance (Piece.text (front ++ [piece])) := by
  rw [place_append, place_cons_some hkind]
  refine ⟨_, List.getLast?_concat, rfl, ?_⟩
  rw [Piece.text_append, Location.advance_append, Piece.text_cons, Piece.text_nil,
    List.append_nil]

namespace Parse

/-- A run of a declaration covers what it takes. -/
theorem Taken.covers {chars : List Char} {node : Node} {past : List Token}
    {state last : ParseState} {left : List Lexeme} (h : Taken chars node past state last left) :
    ∃ lo hi, Covers last.textEnd lo hi [node]
      (left.flatMap fun lexeme => lexeme.leading ++ [lexeme.token]) := by
  obtain ⟨here, hparsed, -⟩ := h.point.ready
  have htwin : Twin (.forTokens (initial chars).rest.length)
      (.forTokens (initial chars).rest.length) 0 _ Unknown true [] [] _ _ := .topLevelDeclaration
  obtain ⟨taken, hstream, ⟨hi, hcovers, -⟩, -⟩ :=
    htwin.reads (Grammar.upTo_advances _ 0) (Grammar.upTo_covering _ 0) hparsed trivial h.run
  rw [h.built, List.append_cancel_right (hstream.symm.trans h.stream_eq)] at hcovers
  exact ⟨here, hi, hcovers⟩

/-- A node spans the text that it was parsed from. -/
theorem Taken.span {chars : List Char} {node : Node} {past : List Token}
    {state last : ParseState} {left : List Lexeme} (h : Taken chars node past state last left)
    {before : List Char} {row : List Piece} (htext : Text before row left) :
    node.start.byte = byteLength before ∧
      node.stop.byte = byteLength before + byteLength (Piece.text row) := by
  obtain ⟨lo, hi, hcovers⟩ := h.covers
  obtain ⟨leads, htokens⟩ := htext.tokens
  have hclean : ∀ other ∈ [node], other.hasError = false := by
    rw [← h.built]
    exact h.clean
  have hstart := hcovers.start_eq hclean
  have hstop := hcovers.stop_eq hclean
  obtain ⟨piece, kind, tail, hrow, hkind⟩ := htext.opening
  rw [htokens, hrow, place_start hkind] at hstart
  obtain ⟨front, closing, hrow', hkind'⟩ := htext.closing
  obtain ⟨token, htoken, -, htokenStop⟩ :=
    @place_stop (Location.origin.advance before) leads front closing _ hkind'
  rw [htokens, hrow', htoken, Option.map_some, htokenStop, ← hrow'] at hstop
  have hstart := congrArg Location.byte (Option.some.inj hstart)
  have hstop := congrArg Location.byte (Option.some.inj hstop)
  rw [Location.byte_advance] at hstart
  rw [Location.byte_advance, Location.byte_advance] at hstop
  simp only [Location.origin, Nat.zero_add] at hstart hstop
  exact ⟨hstart, hstop⟩

end Parse

/-! ## The same text elsewhere -/

namespace Parse

/-- The input behind a stretch that ends at a byte. -/
theorem restBehind?_append {right after : List Lexeme} {byte : Nat} {last : Token}
    (hright : ∀ token ∈ Lexeme.tokens right, token.stop.byte ≤ byte)
    (hlast : (Lexeme.tokens right).getLast? = some last) (hstop : last.stop.byte = byte)
    (hafter : ∀ next ∈ after.head?, byte < next.token.stop.byte) :
    restBehind? (right ++ after) byte = some after := by
  have hcovered : (right ++ after).takeWhile (·.token.stop.byte ≤ byte) = right := by
    rw [List.takeWhile_append_of_pos (by simpa [Lexeme.tokens] using hright)]
    cases after with
    | nil => simp
    | cons next others =>
      have hnext := hafter next rfl
      rw [List.takeWhile_cons_of_neg (by simpa using hnext), List.append_nil]
  rw [Lexeme.tokens, List.getLast?_map] at hlast
  obtain ⟨lexeme, hlexeme, rfl⟩ := Option.map_eq_some_iff.mp hlast
  simp [restBehind?, hcovered, hlexeme, hstop]

/-- A lexeme that tokens are grouped into has one of them. -/
theorem mem_of_mem_group {tokens : List Token} {lexeme : Lexeme}
    (h : lexeme ∈ (Lexeme.group tokens).1) : lexeme.token ∈ tokens := by
  rw [← Lexeme.group_stream tokens]
  exact List.mem_append_left _ (List.mem_flatMap.mpr ⟨lexeme, h, by simp⟩)

/-- Tokens that end on one that is not trivia are grouped into lexemes that end on it. -/
theorem tokens_group {tokens : List Token} {last : Token} (h : tokens.getLast? = some last)
    (hkind : last.kind.isTrivia = false) :
    Lexeme.tokens (Lexeme.group tokens).1 = Token.plain tokens ∧
      (Lexeme.tokens (Lexeme.group tokens).1).getLast? = some last := by
  have hplain : Token.plain _ = _ := Lexeme.filter_flatMap (Lexeme.group_kinds tokens).1
  have hwhole := Lexeme.group_stream tokens
  rw [(Lexeme.group_snd_eq_nil h hkind).2, List.append_nil] at hwhole
  rw [hwhole] at hplain
  refine ⟨hplain.symm, ?_⟩
  obtain ⟨front, rfl⟩ := List.getLast?_eq_some_iff.mp h
  rw [← hplain, Token.plain, List.filter_append]
  simp [hkind]

/-- The tokens of a stretch stop at its end at the latest. -/
theorem stop_le_of_mem_group {here : Location} {leads : Bool} {row : List Piece} {token : Token}
    (hmem : token ∈ Lexeme.tokens (Lexeme.group (place here leads row)).1) :
    token.stop.byte ≤ (here.advance (Piece.text row)).byte := by
  obtain ⟨lexeme, hlexeme, rfl⟩ := List.mem_map.mp hmem
  exact (place_ordered here leads row).stop_le (mem_of_mem_group hlexeme)

/-- The first token behind a place stops later. -/
theorem lt_stop_of_head {here : Location} {leads : Bool} {chars : List Char} {next : Lexeme}
    (hnext : next ∈ (Lexeme.group (place here leads (pieces chars))).1.head?) :
    here.byte < next.token.stop.byte := by
  have hwidth := head_width hnext
  have hordered := place_ordered here leads (pieces chars)
  obtain ⟨left, right, hmem⟩ := List.append_of_mem (mem_of_mem_group (List.mem_of_mem_head? hnext))
  rw [hmem] at hordered
  have hlo := hordered.le_start
  omega

/-- Where the text of a declaration stands at a point, its tokens are the next lexemes, and the
input behind them is the input behind the text. -/
theorem Text.split {before : List Char} {row : List Piece} {left : List Lexeme}
    (htext : Text before row left) {before' behind' : List Char} {past : List Token}
    {state : ParseState} (hpoint : Point (before' ++ Piece.text row ++ behind') past state)
    {first : Lexeme} {others : List Lexeme} (hrest : state.rest = first :: others)
    (hstart : first.token.start.byte = byteLength before') :
    ∃ leads after, state.flush.opened.rest
        = (Lexeme.group (place (Location.origin.advance before') leads row)).1 ++ after ∧
      restBehind? state.rest (byteLength before' + byteLength (Piece.text row)) = some after := by
  obtain ⟨row₀, rest₀, -, -, hcut₀, -, -, hstart₀, hstream⟩ := hpoint.cut hrest
  obtain ⟨rfl, rfl⟩ : Piece.text row₀ = before' ∧ rest₀ = Piece.text row ++ behind' := by
    refine append_inj_of_byteLength (hcut₀.text_append.trans (List.append_assoc ..)) ?_
    rw [hstart₀, Location.byte_advance] at hstart
    simpa [Location.origin] using hstart
  generalize leadsAfter true (Piece.text row₀) = leads at hstream
  generalize hhere : Location.origin.advance (Piece.text row₀) = here at hstream
  have hbyte : (here.advance (Piece.text row)).byte
      = byteLength (Piece.text row₀) + byteLength (Piece.text row) := by
    rw [← hhere, Location.byte_advance, Location.byte_advance]
    simp [Location.origin]
  rw [(htext.cut behind').pieces_eq, place_append] at hstream
  -- The tokens of the stretch are grouped on their own.
  obtain ⟨front, closing, hrow, hclosing⟩ := htext.closing
  obtain ⟨token, htoken, hkind, hstop⟩ := @place_stop here leads front closing _ hclosing
  rw [← hrow] at htoken hstop
  have htrivia : token.kind.isTrivia = false := by
    rw [hkind]
    rfl
  obtain ⟨_, -, hready⟩ := hpoint.ready
  have hgroup := hready.group_stream
  rw [hstream, Lexeme.group_append htoken htrivia] at hgroup
  have hinput := (congrArg Prod.fst hgroup).symm
  simp only at hinput
  refine ⟨leads, _, hinput, ?_⟩
  have hlast := (tokens_group htoken htrivia).2
  have hright := @stop_le_of_mem_group here leads row
  -- Flushing takes nothing from the input but the trivia at its front.
  rw [opened_rest, flush_rest, hrest] at hinput
  have hne := (Lexeme.group_snd_eq_nil htoken htrivia).1
  generalize (Lexeme.group (place here leads row)).1 = right at hinput hright hlast hne
  obtain ⟨next, right, rfl⟩ := List.exists_cons_of_ne_nil hne
  obtain ⟨rfl, rfl⟩ := List.cons.inj hinput
  rw [hrest, ← hbyte]
  exact @restBehind?_append (first :: right) _ _ token (fun _ => hright) hlast (by rw [hstop])
    fun _ => lt_stop_of_head

/-- Where the text of a declaration stands at a point, it is parsed as before. -/
theorem Taken.replay {chars : List Char} {node : Node} {past : List Token}
    {state last : ParseState} {left : List Lexeme} (h : Taken chars node past state last left)
    {before : List Char} {row : List Piece} (htext : Text before row left)
    {before' behind' : List Char} {past' : List Token} {state' : ParseState}
    (hpoint : Point (before' ++ Piece.text row ++ behind') past' state')
    {first : Lexeme} {others : List Lexeme} (hrest : state'.rest = first :: others)
    (hstart : first.token.start.byte = byteLength before') {tokens : Nat}
    (henough : state'.rest.length ≤ tokens) :
    ∃ last' node',
      Production.topLevelDeclaration (.forTokens tokens) 0 state'.flush.opened = .ok last' ∧
      last'.built = [node'] ∧ node.lift (byteLength before') = node'.lift (byteLength before) ∧
      last'.trailing = state'.flush.trailing ∧ last'.textEnd = state'.flush.textEnd ∧
      restBehind? state'.rest (byteLength before' + byteLength (Piece.text row))
        = some last'.rest := by
  obtain ⟨leads, after, hinput, hbehind⟩ := htext.split hpoint hrest hstart
  have halike : Alike (byteLength before') (byteLength before) left
      (Lexeme.group (place (Location.origin.advance before') leads row)).1 := by
    obtain ⟨leads₀, htokens⟩ := htext.tokens
    have hleft := @Lexeme.group_flatMap left [] h.lexemes (by simp)
    rw [List.append_nil, htokens] at hleft
    have hplace : (Location.origin.advance before).byte + byteLength before'
        = (Location.origin.advance before').byte + byteLength before := by
      rw [Location.byte_advance, Location.byte_advance]
      omega
    have hlift := congrArg (fun tokens => (Lexeme.group tokens).1)
      (place_lift hplace leads₀ leads row)
    simp only [Lexeme.group_lift, hleft] at hlift
    exact hlift
  have hagain : Again (byteLength before') (byteLength before) tokens
      state.flush.opened last state'.flush.opened after :=
    ⟨h.point.sound, rfl, by simpa using henough, left, last.rest, _, h.rest, rfl, hinput, halike⟩
  obtain ⟨last', hrun, hreplayed⟩ :=
    topLevelDeclaration_replay hagain h.run h.clean h.delimited
  have hbuilt := hreplayed.built
  rw [h.built, List.map_singleton] at hbuilt
  obtain ⟨node', hlast, hnode⟩ := List.map_eq_singleton_iff.mp hbuilt.symm
  exact ⟨last', node', hrun, hlast, hnode.symm, hreplayed.trailing, hreplayed.textEnd,
    by rw [hreplayed.rest, hbehind]⟩

end Parse

end Azsl
