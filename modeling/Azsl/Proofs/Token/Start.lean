/-
Azsl.Proofs.Token.Start — the characters that tokens start with.

White space is cut off before every token, so a token starts with another character. The path of
an include is the exception: it may be empty and then starts with nothing, but right behind its
opening delimiter. What ends a path is no character of a name, so no name starts where a path
ends.
-/
import Azsl.Proofs.Token.Bound

namespace Azsl

/-! ## Pieces -/

namespace Scan

theorem closing?_not_blank {opening closing : Char} (h : closing? opening = some closing) :
    isBlank opening = false ∧ isBlank closing = false := by
  rcases closing?_eq_some h with ⟨rfl, rfl⟩ | ⟨rfl, rfl⟩ <;> decide

theorem head_pathPieces {chars : List Char} {piece : Piece} (h : piece ∈ pathPieces chars)
    (hpath : piece.kind ≠ some .includePath) : ∃ c ∈ piece.chars.head?, isBlank c = false := by
  cases chars with
  | nil => cases h
  | cons opening inner =>
    simp only [pathPieces] at h
    cases hclosing : closing? opening with
    | none => simp [hclosing] at h
    | some closing =>
      obtain ⟨hopening, hclose⟩ := closing?_not_blank hclosing
      simp only [hclosing, List.mem_append, List.mem_cons, List.not_mem_nil, or_false] at h
      rcases h with (rfl | rfl) | h
      · exact ⟨opening, rfl, hopening⟩
      · exact absurd rfl hpath
      · split at h
        · obtain rfl := List.mem_singleton.mp h
          exact ⟨closing, rfl, hclose⟩
        · cases h

/-- A token at the front of a text starts with a character that is no white space. -/
theorem head_nextToken {chars : List Char} (hne : chars ≠ []) (h : chars.takeWhile isBlank = []) :
    ∃ c ∈ (chars.take (nextToken chars).2).head?, isBlank c = false := by
  cases chars with
  | nil => exact absurd rfl hne
  | cons c rest =>
    refine ⟨c, ?_, ?_⟩
    · rw [← Nat.succ_pred_eq_of_pos (nextToken_length_pos (c :: rest))]
      rfl
    · by_contra hblank
      simp [hblank] at h

theorem head_nextPieces {chars : List Char} (hne : chars ≠ []) {piece : Piece} {kind : TokenKind}
    (h : piece ∈ nextPieces chars) (hkind : piece.kind = some kind) (hpath : kind ≠ .includePath) :
    ∃ c ∈ piece.chars.head?, isBlank c = false := by
  by_cases hblank : chars.takeWhile isBlank = []
  · rw [nextPieces_token hblank] at h
    rcases List.mem_cons.mp h with rfl | h
    · exact head_nextToken hne hblank
    · split at h
      · rw [includeTail_eq, List.mem_append] at h
        rcases h with h | h
        · unfold gap at h
          split at h
          · cases h
          · obtain rfl := List.mem_singleton.mp h
            cases hkind
        · exact head_pathPieces h (by simpa [hkind] using hpath)
      · cases h
  · rw [nextPieces_blank hblank] at h
    obtain rfl := List.mem_singleton.mp h
    cases hkind

end Scan

theorem head_of_mem_pieces {chars : List Char} {piece : Piece} {kind : TokenKind}
    (h : piece ∈ pieces chars) (hkind : piece.kind = some kind) (hpath : kind ≠ .includePath) :
    ∃ c ∈ piece.chars.head?, isBlank c = false := by
  induction chars using pieces_induction with
  | nil => cases h
  | step chars hne ih =>
    rw [pieces_eq hne, List.mem_append] at h
    rcases h with h | h
    · exact Scan.head_nextPieces hne h hkind hpath
    · exact ih h

/-- A path stands right behind the delimiter that opens it. -/
theorem getLast_of_path {chars : List Char} {front back : List Piece} {piece : Piece}
    (h : pieces chars = front ++ piece :: back) (hpath : piece.kind = some .includePath) :
    ∃ c ∈ (Piece.text front).getLast?, isBlank c = false := by
  rcases cut_or_unfinished h with ⟨rest, -, hrest⟩ | ⟨before, more, blanks, hunfinished, hjoins⟩
  · exact absurd hpath (kind_ne_includePath hrest)
  · obtain ⟨opening, rfl⟩ := (hjoins piece rfl).path hpath
    rcases hunfinished.more with hnone | ⟨quote, hquote, hmore⟩
    · cases hnone
    · have hopening : quote = opening := by
        rcases hmore with hmore | ⟨path, -, hmore⟩
        · simpa using hmore.symm
        · simp at hmore
      subst hopening
      refine ⟨quote, ?_, by rcases hquote with rfl | rfl <;> decide⟩
      rw [hunfinished.row, Piece.text_append]
      exact List.getLast?_concat

/-! ## Tokens -/

/-- A token takes up some of the text, but for the path of an include. -/
theorem width_of_mem_tokenize {chars : List Char} {token : Token} (h : token ∈ tokenize chars)
    (hpath : token.kind ≠ .includePath) : token.start.byte < token.stop.byte := by
  obtain ⟨piece, hmem, hkind, -, hstop⟩ := exists_piece_of_mem_place h
  obtain ⟨c, hhead, -⟩ := head_of_mem_pieces hmem hkind hpath
  have hpos : 0 < byteLength piece.chars := byteLength_pos (by rintro hnil; simp [hnil] at hhead)
  rw [hstop, Location.byte_advance]
  omega

/-- A token stands for a piece of the text. -/
theorem exists_piece_of_mem_tokenize {chars : List Char} {token : Token}
    (h : token ∈ tokenize chars) :
    ∃ front piece back, pieces chars = front ++ piece :: back ∧ piece.kind = some token.kind ∧
      chars = Piece.text front ++ (piece.chars ++ Piece.text back) ∧
      token.start = Location.origin.advance (Piece.text front) ∧
      token.stop = token.start.advance piece.chars := by
  obtain ⟨before, behind, hsplit⟩ := List.append_of_mem h
  obtain ⟨front, piece, back, hpieces, -, hkind, hplace⟩ := place_eq_append hsplit
  rw [place_cons_some hkind] at hplace
  refine ⟨front, piece, back, hpieces, hkind, ?_, ?_, ?_⟩
  · rw [← text_pieces chars, hpieces, Piece.text_append, Piece.text_cons]
  · rw [← (List.cons.inj hplace).1]
  · rw [← (List.cons.inj hplace).1]

/-- Where a token starts, it does so with a character that is no white space, or such a character
stands right before it. -/
theorem exists_start_of_mem_tokenize {chars : List Char} {token : Token}
    (h : token ∈ tokenize chars) :
    ∃ left right, chars = left ++ right ∧ token.start = Location.origin.advance left ∧
      ((∃ c ∈ right.head?, isBlank c = false) ∨ ∃ c ∈ left.getLast?, isBlank c = false) := by
  obtain ⟨front, piece, back, hpieces, hkind, hchars, hstart, -⟩ := exists_piece_of_mem_tokenize h
  refine ⟨_, _, hchars, hstart, ?_⟩
  by_cases hpath : token.kind = .includePath
  · exact .inr (getLast_of_path hpieces (hkind.trans (congrArg some hpath)))
  · obtain ⟨c, hhead, hblank⟩ := head_of_mem_pieces (by rw [hpieces]; simp) hkind hpath
    exact .inl ⟨c, by rw [List.head?_append, Option.mem_def.mp hhead]; rfl, hblank⟩

/-! ## Behind a path -/

/-- Pieces in front of a text go on behind every path with a character that is in no path. -/
def Piece.PathsEnd : List Piece → List Char → Prop
  | [], _ => True
  | piece :: more, rest =>
    (piece.kind = some .includePath →
      ∀ c ∈ (Piece.text more ++ rest).head?, Scan.isPathChar c = false) ∧ PathsEnd more rest

open Piece (PathsEnd)

/-- Only behind a path there is something to say. -/
theorem Piece.PathsEnd.cons {piece : Piece} {more : List Piece} {rest : List Char}
    (hkind : piece.kind ≠ some .includePath) (h : PathsEnd more rest) :
    PathsEnd (piece :: more) rest :=
  ⟨fun hpath => absurd hpath hkind, h⟩

theorem Piece.pathsEnd_append (left right : List Piece) (rest : List Char) :
    PathsEnd (left ++ right) rest ↔ PathsEnd left (text right ++ rest) ∧ PathsEnd right rest := by
  induction left with
  | nil => simp [PathsEnd]
  | cons piece more ih =>
    rw [List.cons_append, PathsEnd, PathsEnd, ih, text_append, List.append_assoc, and_assoc]

namespace Scan

variable {chars rest : List Char}

theorem pathPieces_pathsEnd (h : Piece.text (pathPieces chars) ++ rest = chars) :
    PathsEnd (pathPieces chars) rest := by
  cases chars with
  | nil => trivial
  | cons opening inner =>
    simp only [pathPieces] at h ⊢
    cases hclosing : closing? opening with
    | none => trivial
    | some closing =>
      simp only [hclosing, List.cons_append, List.nil_append, Piece.text_cons] at h ⊢
      refine .cons (by simp) ⟨fun _ c hc => ?_, ?_⟩
      · -- what is behind the path is where its characters stop
        have hinner := (List.cons.inj h).2
        rw [List.append_assoc] at hinner
        have hbehind := List.append_cancel_left
          (hinner.trans (List.takeWhile_append_dropWhile (p := isPathChar)).symm)
        have hstop := List.head?_dropWhile_not isPathChar inner
        rw [← hbehind, Option.mem_def.mp hc] at hstop
        simpa using hstop
      · split
        · exact .cons (by simp) trivial
        · trivial

theorem includeTail_pathsEnd (h : Piece.text (includeTail chars) ++ rest = chars) :
    PathsEnd (includeTail chars) rest := by
  rw [includeTail_eq] at h ⊢
  refine (Piece.pathsEnd_append _ _ _).mpr ⟨?_, pathPieces_pathsEnd ?_⟩
  · unfold gap
    split
    · trivial
    · exact .cons (by simp) trivial
  · rw [Piece.text_append, text_gap, List.append_assoc] at h
    have hchars := takeWhile_append_drop isGapChar chars
    exact List.append_cancel_left (h.trans hchars.symm)

theorem nextPieces_pathsEnd (h : Piece.text (nextPieces chars) ++ rest = chars) :
    PathsEnd (nextPieces chars) rest := by
  by_cases hblank : chars.takeWhile isBlank = []
  · rw [nextPieces_token hblank] at h ⊢
    rw [Piece.text_cons, List.append_assoc] at h
    have hrest := List.append_cancel_left (h.trans (List.take_append_drop _ chars).symm)
    refine .cons (fun hkind => nextToken_ne_includePath chars (Option.some.inj hkind)) ?_
    · split at hrest
      · rw [if_pos ‹_›]
        exact includeTail_pathsEnd hrest
      · rw [if_neg ‹_›]
        trivial
  · rw [nextPieces_blank hblank]
    exact .cons (by simp) trivial

end Scan

theorem pieces_pathsEnd (chars : List Char) : PathsEnd (pieces chars) [] := by
  induction chars using pieces_induction with
  | nil => trivial
  | step chars hne ih =>
    rw [pieces_eq hne, Piece.pathsEnd_append, text_pieces, List.append_nil]
    exact ⟨Scan.nextPieces_pathsEnd (text_nextPieces_append chars), ih⟩

theorem Scan.isPathChar_of_isNameChar {c : Char} (h : isNameChar c = true) :
    isPathChar c = true := by
  by_contra hpath
  have hmem : c ∈ ['<', '>', '"', '\'', '\r', '\n'] := by
    rw [isPathChar, Bool.not_eq_true, Bool.not_eq_false'] at hpath
    exact List.contains_iff_mem.mp hpath
  have hnames : (['<', '>', '"', '\'', '\r', '\n'].all fun c => !isNameChar c) = true := by
    decide +kernel
  have hname := List.all_eq_true.mp hnames c hmem
  rw [h] at hname
  cases hname

/-- No word starts where an empty path stands. -/
theorem start_ne_of_path {chars : List Char} {path word : Token} (hpath : path ∈ tokenize chars)
    (hkind : path.kind = .includePath) (hempty : path.stop.byte ≤ path.start.byte)
    (hword : word ∈ tokenize chars) (hkind' : word.kind = .word) :
    word.start.byte ≠ path.start.byte := by
  intro hsame
  obtain ⟨front, piece, back, hpieces, hpiece, hchars, hstart, hstop⟩ :=
    exists_piece_of_mem_tokenize hpath
  obtain ⟨front', piece', back', hpieces', hpiece', hchars', hstart', -⟩ :=
    exists_piece_of_mem_tokenize hword
  have hnone : piece.chars = [] := by
    by_contra hne
    have hpos := byteLength_pos hne
    rw [hstop, Location.byte_advance] at hempty
    omega
  rw [hnone, List.nil_append] at hchars
  rw [hstart, hstart', Location.byte_advance, Location.byte_advance] at hsame
  obtain ⟨-, hback⟩ := append_inj_of_byteLength (hchars'.symm.trans hchars) (by omega)
  -- the word starts with a character that would be in the path
  have hfine : piece'.Fine := fine_of_pieces (by rw [hpieces']; simp)
  obtain ⟨c, hhead, hname⟩ := hfine.word (hkind' ▸ hpiece')
  have hends := pieces_pathsEnd chars
  rw [hpieces, Piece.pathsEnd_append] at hends
  have hnot := hends.2.1 (hkind ▸ hpiece) c (by
    rw [List.append_nil, ← hback, List.head?_append, Option.mem_def.mp hhead]
    rfl)
  rw [Scan.isPathChar_of_isNameChar hname] at hnot
  cases hnot

end Azsl
