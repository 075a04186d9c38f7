/-
Azsl.Proofs.Token.Place — what the tokens of a text have in common.

The tokens stand in the order of their pieces, none is spelled like what it is not, and grouping
them by trivia keeps them all.
-/
import Azsl.Proofs.Grammar.Cover
import Azsl.Proofs.Token.Pieces

namespace Azsl

/-! ## Pieces -/

/-- What a piece of some kind looks like. -/
structure Piece.Fine (piece : Piece) : Prop where
  trivia : ∀ kind ∈ piece.kind, kind.isTrivia = true → piece.chars ≠ []
  quoted : piece.kind = some .stringLiteral → ∃ inner, piece.chars = '"' :: inner ++ ['"']
  word : piece.kind = some .word → ∃ c ∈ piece.chars.head?, Scan.isNameChar c = true

namespace Scan

/-- A string is closed by a quote. -/
theorem stringBody?_take {chars : List Char} {length : Nat}
    (h : stringBody? chars = some length) : ∃ inner, chars.take length = inner ++ ['"'] := by
  induction chars using stringBody?.induct generalizing length with
  | case1 => simp [stringBody?] at h
  | case2 rest =>
    obtain rfl : 1 = length := by simpa [stringBody?] using h
    exact ⟨[], rfl⟩
  | case3 => simp [stringBody?] at h
  | case4 c rest hescapable ih =>
    simp only [stringBody?, hescapable, if_true, Option.map_eq_some_iff] at h
    obtain ⟨more, hmore, rfl⟩ := h
    obtain ⟨inner, hinner⟩ := ih hmore
    exact ⟨'\\' :: c :: inner, by simp [Nat.add_comm 2 more, hinner]⟩
  | case5 c rest hescapable => simp [stringBody?, hescapable] at h
  | case6 rest => simp [stringBody?] at h
  | case7 c rest hquote hsingle hescape hfeed ih =>
    rw [stringBody?.eq_def] at h
    split at h
    · simp_all
    · simp_all
    · simp_all
    · simp_all
    · rename_i heq
      obtain ⟨rfl, rfl⟩ := List.cons.inj heq
      simp only [hfeed, if_false, Option.map_eq_some_iff] at h
      obtain ⟨more, hmore, rfl⟩ := h
      obtain ⟨inner, hinner⟩ := ih hmore
      exact ⟨c :: inner, by simp [Nat.add_comm 1 more, hinner]⟩

/-- The first characters of a text that is not empty, at least one of them. -/
theorem take_ne_nil {chars : List Char} {length : Nat} (h : chars ≠ []) (hpos : 0 < length) :
    chars.take length ≠ [] := by
  simp [h]
  omega

theorem nextToken_stringLiteral {chars : List Char} (h : (nextToken chars).1 = .stringLiteral) :
    0 < stringLiteral chars ∧ (nextToken chars).2 = stringLiteral chars := by
  revert h
  unfold nextToken
  simp only
  split_ifs with _ _ _ hstring <;> intro h <;> cases h
  exact ⟨hstring, rfl⟩

theorem nextToken_word {chars : List Char} (h : (nextToken chars).1 = .word) :
    0 < word chars ∧ (nextToken chars).2 = word chars := by
  revert h
  unfold nextToken
  simp only
  split_ifs with _ _ _ _ hword <;> intro h <;> cases h
  exact ⟨hword.1, rfl⟩

theorem nextToken_fine {chars : List Char} (h : chars ≠ []) :
    Piece.Fine ⟨some (nextToken chars).1, chars.take (nextToken chars).2⟩ := by
  refine ⟨fun _ _ _ => take_ne_nil h (nextToken_length_pos chars), fun hkind => ?_,
    fun hkind => ?_⟩
  · obtain ⟨hpos, hlength⟩ := nextToken_stringLiteral (Option.some.inj hkind)
    rw [hlength]
    unfold stringLiteral at hpos ⊢
    split at hpos
    · rename_i rest
      cases hbody : stringBody? rest with
      | none => simp [hbody] at hpos
      | some length =>
        obtain ⟨inner, hinner⟩ := stringBody?_take hbody
        exact ⟨inner, by simp [Nat.add_comm 1 length, hinner]⟩
    · omega
  · obtain ⟨hpos, hlength⟩ := nextToken_word (Option.some.inj hkind)
    rw [hlength]
    cases chars with
    | nil => exact absurd rfl h
    | cons c rest =>
      have hname : isNameChar c = true := by
        by_contra hnot
        simp [word, runLength, hnot] at hpos
      refine ⟨c, ?_, hname⟩
      rw [← Nat.succ_pred_eq_of_pos hpos]
      rfl

theorem fine_of_kind_eq_none {piece : Piece} (h : piece.kind = none) : piece.Fine :=
  ⟨by simp [h], by simp [h], by simp [h]⟩

theorem kind_of_mem_includeTail {chars : List Char} {piece : Piece}
    (h : piece ∈ includeTail chars) :
    piece.kind = none ∨ piece.kind = some .punct ∨ piece.kind = some .includePath := by
  unfold includeTail at h
  simp only at h
  split at h
  · split at h <;> simp_all
  · split at h
    · split at h <;> simp_all
    · simp only [List.mem_append, List.mem_cons, List.not_mem_nil, or_false] at h
      rcases h with (h | rfl | rfl) | h
      · split at h <;> simp_all
      · simp
      · simp
      · split at h <;> simp_all

theorem fine_of_includeTail {chars : List Char} {piece : Piece} (h : piece ∈ includeTail chars) :
    piece.Fine := by
  rcases kind_of_mem_includeTail h with hkind | hkind | hkind
  · exact fine_of_kind_eq_none hkind
  · exact ⟨by simp [hkind, TokenKind.isTrivia], by simp [hkind], by simp [hkind]⟩
  · exact ⟨by simp [hkind, TokenKind.isTrivia], by simp [hkind], by simp [hkind]⟩

theorem fine_of_nextPieces {chars : List Char} (hne : chars ≠ []) {piece : Piece}
    (h : piece ∈ nextPieces chars) : piece.Fine := by
  unfold nextPieces at h
  simp only at h
  split at h
  · split at h
    · rcases List.mem_cons.mp h with rfl | h
      · exact nextToken_fine hne
      · exact fine_of_includeTail h
    · obtain rfl := List.mem_singleton.mp h
      exact nextToken_fine hne
  · obtain rfl := List.mem_singleton.mp h
    exact fine_of_kind_eq_none rfl

end Scan

theorem fine_of_pieces {chars : List Char} {piece : Piece} (h : piece ∈ pieces chars) :
    piece.Fine := by
  induction chars using pieces_induction with
  | nil => simp [pieces, piecesAfter] at h
  | step chars hne ih =>
    rw [pieces_eq hne, List.mem_append] at h
    rcases h with h | h
    · exact Scan.fine_of_nextPieces hne h
    · exact ih h

/-! ## Tokens -/

namespace Token

/-- A word is not spelled like a bracket. -/
theorem ofText_of_isNameChar {chars : List Char} {c : Char} (hhead : chars.head? = some c)
    (hname : Scan.isNameChar c = true) : Role.ofText (String.ofList chars) = .plain := by
  refine ofText_eq_plain fun hmem => ?_
  have hspecial : Role.specialTexts.all
      (fun text => text.toList.head?.all (!Scan.isNameChar ·)) = true := by decide
  have hfirst := List.all_eq_true.mp hspecial _ hmem
  rw [String.toList_ofList, hhead, Option.all_some, hname] at hfirst
  cases hfirst

end Token

theorem exists_piece_of_mem_place {here : Location} {leads : Bool} {row : List Piece}
    {token : Token} (h : token ∈ place here leads row) :
    ∃ piece ∈ row, piece.kind = some token.kind ∧ token.text.toList = piece.chars ∧
      token.stop = token.start.advance piece.chars := by
  induction row generalizing here leads with
  | nil => simp [place] at h
  | cons piece rest ih =>
    cases hkind : piece.kind with
    | none =>
      simp only [place, hkind] at h
      obtain ⟨other, hmem, hother⟩ := ih h
      exact ⟨other, List.mem_cons_of_mem _ hmem, hother⟩
    | some kind =>
      simp only [place, hkind] at h
      rcases List.mem_cons.mp h with rfl | h
      · exact ⟨piece, by simp, hkind, by simp, rfl⟩
      · obtain ⟨other, hmem, hother⟩ := ih h
        exact ⟨other, List.mem_cons_of_mem _ hmem, hother⟩

theorem fine_of_mem_tokenize {chars : List Char} {token : Token} (h : token ∈ tokenize chars) :
    token.Fine := by
  obtain ⟨piece, hmem, hkind, htext, hstop⟩ := exists_piece_of_mem_place h
  have hfine := fine_of_pieces hmem
  refine ⟨fun htrivia => ?_, fun hstring => ?_⟩
  · have hne := hfine.trivia _ hkind htrivia
    have hpos := byteLength_pos hne
    rw [hstop, Location.byte_advance]
    omega
  · obtain ⟨inner, hinner⟩ := hfine.quoted (hstring ▸ hkind)
    exact ⟨⟨inner, htext.trans hinner⟩, by rw [htext]; exact hstop⟩

theorem sound_of_mem_tokenize {chars : List Char} {token : Token} (h : token ∈ tokenize chars) :
    token.Sound := by
  intro hword
  obtain ⟨piece, hmem, hkind, htext, -⟩ := exists_piece_of_mem_place h
  obtain ⟨c, hhead, hname⟩ := (fine_of_pieces hmem).word (hword ▸ hkind)
  have := Token.ofText_of_isNameChar hhead hname
  rwa [← htext, String.ofList_toList] at this

theorem place_ordered (here : Location) (leads : Bool) (row : List Piece) :
    Token.Ordered (here.advance (Piece.text row)).byte here.byte (place here leads row) := by
  induction row generalizing here leads with
  | nil => exact Nat.le_refl _
  | cons piece rest ih =>
    have hrest := ih (here.advance piece.chars) (leadsAfter leads piece.chars)
    rw [Piece.text_cons, Location.advance_append]
    have hle := here.byte_le_advance piece.chars
    cases hkind : piece.kind with
    | none =>
      simp only [place, hkind]
      exact hrest.weaken hle
    | some kind =>
      simp only [place, hkind]
      exact ⟨Nat.le_refl _, hle, hrest⟩

/-- The tokens of a text stand in its order. -/
theorem tokenize_ordered (chars : List Char) :
    Token.Ordered (Location.origin.advance chars).byte 0 (tokenize chars) := by
  have := place_ordered .origin true (pieces chars)
  rwa [text_pieces] at this

/-! ## Grouping by trivia -/

namespace Lexeme

theorem group_stream (tokens : List Token) :
    (group tokens).1.flatMap (fun lexeme => lexeme.leading ++ [lexeme.token]) ++ (group tokens).2
      = tokens := by
  induction tokens with
  | nil => rfl
  | cons token rest ih =>
    simp only [group]
    split
    · split
      · rename_i hnil
        simpa [hnil] using ih
      · rename_i hcons
        simpa [hcons] using ih
    · simpa using ih

theorem group_kinds (tokens : List Token) :
    (∀ lexeme ∈ (group tokens).1, (∀ token ∈ lexeme.leading, token.kind.isTrivia = true) ∧
      lexeme.token.kind.isTrivia = false) ∧
    ∀ token ∈ (group tokens).2, token.kind.isTrivia = true := by
  induction tokens with
  | nil => simp [group]
  | cons token rest ih =>
    obtain ⟨hlexemes, htrailing⟩ := ih
    simp only [group]
    split
    · rename_i htrivia
      split
      · exact ⟨by simp, by simpa [htrivia] using htrailing⟩
      · rename_i next others hcons
        refine ⟨fun lexeme hmem => ?_, htrailing⟩
        rcases List.mem_cons.mp hmem with rfl | hmem
        · have hnext := hlexemes next (by simp [hcons])
          exact ⟨by simpa [htrivia] using hnext.1, hnext.2⟩
        · exact hlexemes lexeme (by simp [hcons, hmem])
    · rename_i htrivia
      refine ⟨fun lexeme hmem => ?_, htrailing⟩
      rcases List.mem_cons.mp hmem with rfl | hmem
      · exact ⟨by simp, by simpa using htrivia⟩
      · exact hlexemes lexeme hmem

end Lexeme

end Azsl
