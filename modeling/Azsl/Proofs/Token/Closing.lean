/-
Azsl.Proofs.Token.Closing — the tokens up to a closing token.

A `;` or `}` ends a stretch that is cut the same way before any other rest, unless a quote in the
stretch is waiting for another one. The tokens up to it are those of the stretch: what comes behind
ends later, since even a path of no width stands behind the delimiter that opens it.
-/
import Azsl.Proofs.Text.Lines
import Azsl.Proofs.Token.Bound

namespace Azsl

namespace Token

/-- The tokens that end at a byte or before it. -/
def upTo (byte : Nat) (tokens : List Token) : List Token :=
  tokens.filter (·.stop.byte ≤ byte)

theorem upTo_append (byte : Nat) (left right : List Token) :
    upTo byte (left ++ right) = upTo byte left ++ upTo byte right :=
  List.filter_append ..

theorem upTo_eq_self {byte : Nat} {tokens : List Token}
    (h : ∀ token ∈ tokens, token.stop.byte ≤ byte) : upTo byte tokens = tokens :=
  List.filter_eq_self.mpr fun token hmem => decide_eq_true (h token hmem)

theorem upTo_eq_nil {byte : Nat} {tokens : List Token}
    (h : ∀ token ∈ tokens, byte < token.stop.byte) : upTo byte tokens = [] :=
  List.filter_eq_nil_iff.mpr fun token hmem => by simpa using h token hmem

/-- Tokens that end on `;` or `}` do not end inside an include. -/
theorem not_awaits_of_closing {before : List Token} {closing : Token}
    (hkind : closing.kind = .punct) (htext : closing.text = ";" ∨ closing.text = "\x7d") :
    ¬ Awaits (plain (before ++ [closing])) := by
  have hplain : plain (before ++ [closing]) = plain before ++ [closing] := by
    simp [plain, hkind, TokenKind.isTrivia]
  refine Closed.not_awaits ⟨_, closing, hplain, .inr hkind, .inl ?_⟩
  rcases htext with htext | htext <;> simp [htext]

end Token

/-! ## Tokens of a stretch and of what comes behind it -/

/-- The first piece of a text is not empty. -/
theorem exists_pieces_cons {chars : List Char} (hne : chars ≠ []) :
    ∃ first others, pieces chars = first :: others ∧ first.chars ≠ [] := by
  rw [pieces_eq hne]
  by_cases hblank : chars.takeWhile isBlank = []
  · rw [Scan.nextPieces_token hblank]
    exact ⟨_, _, rfl, Scan.take_ne_nil hne (Scan.nextToken_length_pos chars)⟩
  · rw [Scan.nextPieces_blank hblank]
    exact ⟨_, _, rfl, hblank⟩

theorem stop_le_of_mem_place {here : Location} {leads : Bool} {row : List Piece} {token : Token}
    (h : token ∈ place here leads row) : token.stop.byte ≤ (here.advance (Piece.text row)).byte :=
  (place_ordered here leads row).stop_le h

/-- Every token of a text ends behind the start of the text. -/
theorem lt_stop_of_mem_place {here : Location} {leads : Bool} {chars : List Char} {token : Token}
    (h : token ∈ place here leads (pieces chars)) : here.byte < token.stop.byte := by
  by_cases hne : chars = []
  · simp [hne, pieces, piecesAfter, place] at h
  · obtain ⟨first, others, hpieces, hfirst⟩ := exists_pieces_cons hne
    have hwide : here.byte < (here.advance first.chars).byte := by
      have hpos := byteLength_pos hfirst
      rw [Location.byte_advance]
      omega
    have hbehind : ∀ leads, token ∈ place (here.advance first.chars) leads others →
        here.byte < token.stop.byte := by
      intro leads hmem
      have hordered := place_ordered (here.advance first.chars) leads others
      have hstart := hordered.le_start_of_mem hmem
      have hstop := hordered.start_le_stop hmem
      omega
    rw [hpieces] at h
    cases hkind : first.kind with
    | none =>
      rw [place_cons_none hkind] at h
      exact hbehind _ h
    | some kind =>
      rw [place_cons_some hkind] at h
      rcases List.mem_cons.mp h with rfl | h
      · exact hwide
      · exact hbehind _ h

/-- The tokens up to a byte that a text may be cut at. -/
theorem Cut.upTo_tokenize {chars rest : List Char} {row : List Piece} (h : Cut chars row rest) :
    Token.upTo (Location.origin.advance (Piece.text row)).byte (tokenize chars)
      = place .origin true row := by
  rw [tokenize, h.pieces_eq, place_append, Token.upTo_append,
    Token.upTo_eq_self fun token => stop_le_of_mem_place,
    Token.upTo_eq_nil fun token => lt_stop_of_mem_place, List.append_nil]

/-- A quote that opens no string is a token of the row it stands in. -/
theorem exists_quote_of_stray {row : List Piece} (h : Scan.stray ∈ row) :
    ∃ token ∈ place .origin true row, token.kind = .unknown ∧ token.text = "\"" ∧
      token.start.byte < (Location.origin.advance (Piece.text row)).byte := by
  obtain ⟨token, hmem, hkind, hchars⟩ := @exists_mem_place .origin true _ _ TokenKind.unknown h rfl
  refine ⟨token, hmem, hkind, String.toList_injective hchars, ?_⟩
  obtain ⟨piece, -, -, htext, hstop⟩ := exists_piece_of_mem_place hmem
  have hwide : 0 < byteLength piece.chars := by
    rw [← htext, hchars]
    decide
  have hle := stop_le_of_mem_place hmem
  rw [hstop, Location.byte_advance] at hle
  omega

/-- What follows a closing token does not change the tokens up to it, if no quote before it opens no
string. -/
theorem upTo_tokenize_closing {chars : List Char} {closing : Token}
    (hmem : closing ∈ tokenize chars) (hkind : closing.kind = .punct)
    (htext : closing.text = ";" ∨ closing.text = "\x7d")
    (hstray : ∀ token ∈ tokenize chars, token.kind = .unknown → token.text = "\"" →
      ¬ token.start.byte < closing.stop.byte) (behind : List Char) :
    byteLength (takeBytes closing.stop.byte chars) = closing.stop.byte ∧
      Token.upTo closing.stop.byte (tokenize (takeBytes closing.stop.byte chars ++ behind))
        = Token.upTo closing.stop.byte (tokenize chars) := by
  obtain ⟨before, after, hsplit⟩ := List.append_of_mem hmem
  obtain ⟨row, piece, rest, hcut, hplace, hpiece, hchars, -⟩ :=
    cut_behind hsplit (Token.not_awaits_of_closing hkind htext)
  have hstop : closing.stop = Location.origin.advance (Piece.text (row ++ [piece])) := by
    rw [place_append, place_cons_some hpiece] at hplace
    obtain ⟨-, hlast⟩ := List.append_inj' hplace rfl
    rw [← (List.cons.inj hlast).1, Piece.text_append, Location.advance_append]
    simp
  have hbyte : closing.stop.byte = byteLength (Piece.text (row ++ [piece])) := by
    rw [hstop, Location.byte_advance]
    exact Nat.zero_add _
  have htake : takeBytes closing.stop.byte chars = Piece.text (row ++ [piece]) := by
    rw [hbyte, ← hcut.text_append]
    exact SourceText.takeBytes_byteLength _ _
  obtain ⟨c, hc, hhard⟩ : ∃ c, piece.chars = [c] ∧ Scan.isHard c = true := by
    rw [← hchars]
    rcases htext with htext | htext <;> exact ⟨_, by rw [htext]; rfl, by decide⟩
  have hlast : (row ++ [piece]).getLast? = some ⟨some .punct, [c]⟩ := by
    rw [List.getLast?_concat, ← hkind, ← hpiece, ← hc]
  have hnone : Scan.stray ∉ row ++ [piece] := by
    intro hmem
    obtain ⟨token, htoken, hunknown, hquote, hbelow⟩ := exists_quote_of_stray hmem
    refine hstray token ?_ hunknown hquote (by rwa [hstop])
    rw [tokenize, hcut.pieces_eq, place_append]
    exact List.mem_append_left _ htoken
  refine ⟨by rw [htake, hbyte], ?_⟩
  rw [htake, hstop, (hcut.moves hlast (.inl hhard) hnone behind).upTo_tokenize, hcut.upTo_tokenize]

/-- The quote behind the closing token finds its end in the other rest. -/
theorem upTo_tokenize_semicolon :
    Token.upTo 2 (tokenize (takeBytes 2 "a; \"b".toList ++ "\"c\"".toList))
      = Token.upTo 2 (tokenize "a; \"b".toList) :=
  (@upTo_tokenize_closing "a; \"b".toList ⟨.punct, ⟨1, ⟨0, 1⟩⟩, ⟨2, ⟨0, 2⟩⟩, ";", false⟩
    (by decide +kernel) rfl (.inl rfl) (by decide +kernel) "\"c\"".toList).2

end Azsl
