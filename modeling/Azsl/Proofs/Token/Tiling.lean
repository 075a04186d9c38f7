/-
Azsl.Proofs.Token.Tiling — the tokens of a text tile it.

Tokens stand in order and do not overlap, each stands for the characters between its places, and
no character is left out but white space (`tokenize_tiles`). Only the path of an include may be
empty. There is one right behind every delimiter that opens it, and nowhere else: the delimiter
and the directive before it belong to one group of pieces, which is cut as a whole.
-/
import Azsl.Proofs.Token.Start

namespace Azsl

/-! ## White space -/

namespace Scan

theorem kind_of_mem_pathPieces {chars : List Char} {piece : Piece} (h : piece ∈ pathPieces chars) :
    piece.kind ≠ none := by
  cases chars with
  | nil => cases h
  | cons opening inner =>
    simp only [pathPieces] at h
    cases hclosing : closing? opening with
    | none => simp [hclosing] at h
    | some closing =>
      simp only [hclosing, List.mem_append, List.mem_cons, List.not_mem_nil, or_false] at h
      rcases h with (rfl | rfl) | h
      · exact Option.some_ne_none _
      · exact Option.some_ne_none _
      · split at h
        · obtain rfl := List.mem_singleton.mp h
          exact Option.some_ne_none _
        · cases h

theorem isBlank_of_isGapChar {c : Char} (h : isGapChar c = true) : isBlank c = true := by
  simp only [isGapChar, Bool.or_eq_true, beq_iff_eq] at h
  rcases h with rfl | rfl <;> decide

theorem blank_of_mem_gap {blanks : List Char} (h : ∀ c ∈ blanks, isGapChar c = true)
    {piece : Piece} (hmem : piece ∈ gap blanks) : ∀ c ∈ piece.chars, isBlank c = true := by
  unfold gap at hmem
  split at hmem
  · cases hmem
  · obtain rfl := List.mem_singleton.mp hmem
    exact fun c hc => isBlank_of_isGapChar (h c hc)

/-- A piece that is no token is white space. -/
theorem blank_of_mem_nextPieces {chars : List Char} {piece : Piece} (h : piece ∈ nextPieces chars)
    (hkind : piece.kind = none) : ∀ c ∈ piece.chars, isBlank c = true := by
  by_cases hblank : chars.takeWhile isBlank = []
  · rw [nextPieces_token hblank] at h
    rcases List.mem_cons.mp h with rfl | h
    · cases hkind
    · split at h
      · rw [includeTail_eq, List.mem_append] at h
        rcases h with h | h
        · exact blank_of_mem_gap (fun c hc => List.mem_takeWhile_imp hc) h
        · exact absurd hkind (kind_of_mem_pathPieces h)
      · cases h
  · rw [nextPieces_blank hblank] at h
    obtain rfl := List.mem_singleton.mp h
    exact fun c hc => List.mem_takeWhile_imp hc

end Scan

theorem blank_of_mem_pieces {chars : List Char} {piece : Piece} (h : piece ∈ pieces chars)
    (hkind : piece.kind = none) : ∀ c ∈ piece.chars, isBlank c = true := by
  induction chars using pieces_induction with
  | nil => cases h
  | step chars hne ih =>
    rw [pieces_eq hne, List.mem_append] at h
    rcases h with h | h
    · exact Scan.blank_of_mem_nextPieces h hkind
    · exact ih h

/-- Every character of a row of pieces is in a piece that is no token, or between the places of
a token. -/
theorem place_covers {here : Location} {leads : Bool} {row : List Piece} {left right : List Char}
    {c : Char} (h : Piece.text row = left ++ c :: right) :
    (∃ piece ∈ row, piece.kind = none ∧ c ∈ piece.chars) ∨
      ∃ token ∈ place here leads row, token.start.byte ≤ here.byte + byteLength left ∧
        here.byte + byteLength left + c.utf8Size ≤ token.stop.byte := by
  induction row generalizing here leads left with
  | nil => simp at h
  | cons piece rest ih =>
    rw [Piece.text_cons] at h
    have hrest : ∀ {token : Token},
        token ∈ place (here.advance piece.chars) (leadsAfter leads piece.chars) rest →
          token ∈ place here leads (piece :: rest) := by
      intro token hmem
      cases hkind : piece.kind with
      | none => rwa [place_cons_none hkind]
      | some kind =>
        rw [place_cons_some hkind]
        exact List.mem_cons_of_mem _ hmem
    rcases List.append_eq_append_iff.mp h with ⟨left', rfl, htext⟩ | ⟨inner, hpiece, htext⟩
    · -- the character comes behind the first piece
      rcases ih htext with ⟨found, hmem, hfound⟩ | ⟨token, hmem, hstart, hstop⟩
      · exact .inl ⟨found, List.mem_cons_of_mem _ hmem, hfound⟩
      · rw [Location.byte_advance] at hstart hstop
        rw [byteLength_append]
        exact .inr ⟨token, hrest hmem, by omega, by omega⟩
    · cases inner with
      | nil =>
        have hnext : Piece.text rest = [] ++ c :: right := htext.symm
        rcases @ih (here.advance piece.chars) (leadsAfter leads piece.chars) [] hnext with ⟨found, hmem, hfound⟩ | ⟨token, hmem, hstart, hstop⟩
        · exact .inl ⟨found, List.mem_cons_of_mem _ hmem, hfound⟩
        · rw [Location.byte_advance, hpiece, List.append_nil] at hstart hstop
          rw [byteLength_nil, Nat.add_zero] at hstart hstop
          exact .inr ⟨token, hrest hmem, hstart, hstop⟩
      | cons first inner =>
        obtain ⟨rfl, -⟩ := List.cons.inj htext
        cases hkind : piece.kind with
        | none => exact .inl ⟨piece, List.mem_cons_self, hkind, by simp [hpiece]⟩
        | some kind =>
          rw [place_cons_some hkind]
          refine .inr ⟨_, List.mem_cons_self, Nat.le_add_right _ _, ?_⟩
          rw [Location.byte_advance, hpiece, byteLength_append, byteLength_cons]
          omega

/-! ## Paths of includes -/

/-- A delimiter behind an include directive with nothing but spaces and tabs between them. -/
structure Token.OpensPath (chars : List Char) (directive opening : Token) : Prop where
  kind : directive.kind = .includeDirective
  delimiter : opening.text = "\"" ∨ opening.text = "<"
  blanks : ∃ before blanks behind, chars = before ++ (blanks ++ behind) ∧
    directive.stop = Location.origin.advance before ∧
    opening.start = directive.stop.advance blanks ∧ ∀ c ∈ blanks, c = ' ' ∨ c = '\t'

theorem Scan.isGapChar_iff {c : Char} : isGapChar c = true ↔ c = ' ' ∨ c = '\t' := by
  simp [isGapChar]

theorem place_gap (here : Location) (leads : Bool) (blanks : List Char) :
    place here leads (Scan.gap blanks) = [] := by
  unfold Scan.gap
  split <;> rfl

/-- Before a path stand the directive and the delimiter that opens it. -/
theorem opensPath_of_path {chars : List Char} {front behind : List Token} {token : Token}
    (h : tokenize chars = front ++ token :: behind) (hkind : token.kind = .includePath) :
    ∃ earlier directive opening, front = earlier ++ [directive, opening] ∧
      Token.OpensPath chars directive opening ∧ token.start = opening.stop := by
  obtain ⟨row, piece, others, hpieces, rfl, hpiece, hbehind⟩ := place_eq_append h
  rw [hkind] at hpiece
  rcases cut_or_unfinished hpieces with ⟨rest, -, hrest⟩ | ⟨before, more, blanks, hunfinished, hhead⟩
  · exact absurd hpiece (kind_ne_includePath hrest)
  · obtain ⟨opening, rfl⟩ := (hhead piece rfl).path hpiece
    have hopening : opening = '"' ∨ opening = '<' := by
      rcases hunfinished.more with hnone | ⟨quote, hquote, hmore | ⟨path, -, hmore⟩⟩
      · cases hnone
      · obtain rfl : opening = quote := by simpa using hmore
        exact hquote
      · simp at hmore
    have hrow := hunfinished.row
    rw [List.append_assoc, List.cons_append] at hrow
    have htext : Piece.text row
        = (Piece.text before ++ "#include".toList) ++ (blanks ++ [opening]) := by
      simp [hrow, Scan.text_gap]
    have hstart : token.start = Location.origin.advance (Piece.text row) := by
      rw [place_cons_some hpiece] at hbehind
      rw [← (List.cons.inj hbehind).1]
    rw [hrow, place_append, place_cons_some rfl, place_append, place_gap, List.nil_append,
      place_cons_some rfl, Scan.text_gap]
    refine ⟨_, _, _, rfl, ⟨rfl, ?_, Piece.text before ++ "#include".toList, blanks,
      opening :: Piece.text (piece :: others), ?_, ?_, rfl, ?_⟩, ?_⟩
    · rcases hopening with rfl | rfl
      · exact .inl rfl
      · exact .inr rfl
    · rw [← text_pieces chars, hpieces, Piece.text_append, htext]
      simp
    · rw [Location.advance_append]
    · exact fun c hc => Scan.isGapChar_iff.mp (hunfinished.blanks c hc)
    · rw [hstart, htext, Location.advance_append, Location.advance_append,
        Location.advance_append]

/-- Where a token stands that is not empty, no other one does. -/
theorem eq_of_start_eq {tokens : List Token}
    (hordered : tokens.Pairwise fun earlier later => earlier.stop.byte ≤ later.start.byte)
    {first second : Token} (hfirst : first ∈ tokens) (hsecond : second ∈ tokens)
    (hsame : first.start = second.start) (hwide : first.start.byte < first.stop.byte)
    (hwide' : second.start.byte < second.stop.byte) : first = second := by
  induction tokens with
  | nil => cases hfirst
  | cons token rest ih =>
    obtain ⟨hhead, hrest⟩ := List.pairwise_cons.mp hordered
    rcases List.mem_cons.mp hfirst with rfl | hmem
    · rcases List.mem_cons.mp hsecond with rfl | hmem'
      · rfl
      · have hle := hhead second hmem'
        rw [← hsame] at hle
        omega
    · rcases List.mem_cons.mp hsecond with rfl | hmem'
      · have hle := hhead first hmem
        rw [hsame] at hle
        omega
      · exact ih hrest hmem hmem'

/-- What is behind a directive is cut off together with it. -/
theorem includeTail_of_directive {chars : List Char} {front behind : List Piece} {piece : Piece}
    (h : pieces chars = front ++ piece :: behind) (hkind : piece.kind = some .includeDirective) :
    ∃ rest others, chars = Piece.text front ++ piece.chars ++ rest ∧
      behind = Scan.includeTail rest ++ others := by
  rcases cut_or_unfinished h with ⟨rest, hcut, hrest⟩ | ⟨_, _, _, -, hhead⟩
  · have hne : rest ≠ [] := by
      rintro rfl
      cases hrest
    rw [pieces_eq hne] at hrest
    have hblank : rest.takeWhile isBlank = [] := by
      by_contra hblank
      rw [Scan.nextPieces_blank hblank] at hrest
      rw [← (List.cons.inj hrest).1] at hkind
      cases hkind
    rw [Scan.nextPieces_token hblank] at hrest
    obtain ⟨rfl, hbehind⟩ := List.cons.inj hrest
    have hdirective : (Scan.nextToken rest).1 = .includeDirective := Option.some.inj hkind
    rw [if_pos hdirective] at hbehind
    refine ⟨_, _, ?_, hbehind.symm⟩
    rw [List.append_assoc, List.take_append_drop, hcut.text_append]
  · exact absurd hkind (hhead piece rfl).directive

/-- The pieces of a path that a delimiter opens. -/
theorem Scan.includeTail_of_opening {blanks inner : List Char} {opening : Char}
    (hblanks : ∀ c ∈ blanks, isGapChar c = true) (hopening : opening = '"' ∨ opening = '<') :
    ∃ path more, includeTail (blanks ++ opening :: inner)
      = gap blanks ++ ⟨some .punct, [opening]⟩ :: ⟨some .includePath, path⟩ :: more := by
  have hgap : isGapChar opening = false := by rcases hopening with rfl | rfl <;> decide
  obtain ⟨close, hclose⟩ : ∃ close, closing? opening = some close := by
    rcases hopening with rfl | rfl <;> exact ⟨_, rfl⟩
  rw [includeTail_eq, takeWhile_stop hblanks hgap, List.drop_left]
  simp only [pathPieces, hclose]
  exact ⟨_, _, rfl⟩

theorem tokenize_pairwise (chars : List Char) :
    (tokenize chars).Pairwise fun earlier later => earlier.stop.byte ≤ later.start.byte :=
  (tokenize_ordered chars).pairwise

/-- The text of a token is what stands between its places. -/
theorem exists_text_of_mem_tokenize {chars : List Char} {token : Token}
    (h : token ∈ tokenize chars) :
    ∃ before behind, chars = before ++ (token.text.toList ++ behind) ∧
      token.start = Location.origin.advance before ∧
      token.stop = token.start.advance token.text.toList := by
  obtain ⟨earlier, later, hsplit⟩ := List.append_of_mem h
  obtain ⟨front, piece, back, hpieces, -, hkind, hplace⟩ := place_eq_append hsplit
  rw [place_cons_some hkind] at hplace
  rw [← (List.cons.inj hplace).1, String.toList_ofList]
  refine ⟨Piece.text front, Piece.text back, ?_, rfl, rfl⟩
  rw [← text_pieces chars, hpieces, Piece.text_append, Piece.text_cons]

/-- A text is cut in one way only at a place. -/
theorem append_inj_of_advance {left right left' right' : List Char}
    (h : left ++ right = left' ++ right')
    (hplace : Location.origin.advance left = Location.origin.advance left') :
    left = left' ∧ right = right' := by
  have hbyte := congrArg Location.byte hplace
  rw [Location.byte_advance, Location.byte_advance] at hbyte
  exact append_inj_of_byteLength h (by omega)

/-- Behind the directive and the delimiter that opens a path stands the path. -/
theorem path_of_opensPath {chars : List Char} {directive opening : Token}
    (hdirective : directive ∈ tokenize chars) (hopening : opening ∈ tokenize chars)
    (h : Token.OpensPath chars directive opening) :
    ∃ front path behind, tokenize chars = front ++ directive :: opening :: path :: behind ∧
      path.kind = .includePath ∧ path.start = opening.stop := by
  obtain ⟨front, behind, hsplit⟩ := List.append_of_mem hdirective
  obtain ⟨row, piece, right, hpieces, -, hpiece, hbehind⟩ := place_eq_append hsplit
  obtain ⟨rest, others, hchars, rfl⟩ := includeTail_of_directive hpieces (h.kind ▸ hpiece)
  rw [place_cons_some hpiece] at hbehind
  obtain ⟨hplaced, hbehind⟩ := List.cons.inj hbehind
  have hstop : directive.stop = Location.origin.advance (Piece.text row ++ piece.chars) := by
    rw [← hplaced, Location.advance_append]
  obtain ⟨before, blanks, after, hcut, hbefore, hstart, hblanks⟩ := h.blanks
  obtain ⟨before', inner, hchars', hstart', hstop'⟩ := exists_text_of_mem_tokenize hopening
  obtain ⟨c, hc, hdelimiter⟩ : ∃ c, opening.text = String.ofList [c] ∧ (c = '"' ∨ c = '<') := by
    rcases h.delimiter with htext | htext
    · exact ⟨'"', htext, .inl rfl⟩
    · exact ⟨'<', htext, .inr rfl⟩
  -- the delimiter stands behind the blanks, so the pieces behind the directive begin with both
  have hrest : rest = blanks ++ c :: inner := by
    obtain ⟨-, hrest⟩ := append_inj_of_advance (hcut.symm.trans hchars) (hbefore.symm.trans hstop)
    rw [hbefore, ← Location.advance_append] at hstart
    rw [← List.append_assoc] at hcut
    obtain ⟨-, hafter⟩ := append_inj_of_advance (hcut.symm.trans hchars') (hstart.symm.trans hstart')
    rw [← hrest, hafter, hc, String.toList_ofList, List.singleton_append]
  obtain ⟨path, more, htail⟩ :=
    Scan.includeTail_of_opening (fun c hc => Scan.isGapChar_iff.mpr (hblanks c hc)) hdelimiter
  obtain ⟨opened, path, behind, rfl, hopened, hkind, hpath, hnext⟩ : ∃ opened path more,
      behind = opened :: path :: more ∧ opened.start = directive.stop.advance blanks ∧
        opened.kind = .punct ∧ path.kind = .includePath ∧ path.start = opened.stop := by
    rw [hrest, htail, List.append_assoc, place_append, place_gap, List.nil_append,
      List.cons_append, List.cons_append, place_cons_some rfl, place_cons_some rfl,
      Scan.text_gap] at hbehind
    exact ⟨_, _, _, hbehind.symm, by rw [← hplaced], rfl, rfl, rfl⟩
  have hmem : opened ∈ tokenize chars := by
    rw [hsplit]
    simp
  have hwide : opening.start.byte < opening.stop.byte := by
    have hpos := c.utf8Size_pos
    rw [hstop', hc, String.toList_ofList, Location.byte_advance, byteLength_cons]
    omega
  obtain rfl := eq_of_start_eq (tokenize_pairwise chars) hmem hopening (hopened.trans hstart.symm)
    (width_of_mem_tokenize hmem (by simp [hkind])) hwide
  exact ⟨front, path, behind, hsplit, hpath, hnext⟩

/-! ## Tiling -/

/-- What the tokens of a text have in common with tiles. -/
structure Tiles (chars : List Char) (tokens : List Token) : Prop where
  ordered : tokens.Pairwise fun earlier later => earlier.stop.byte ≤ later.start.byte
  /-- A token starts and ends between characters, and its text stands there. -/
  placed : ∀ token ∈ tokens, ∃ before behind, chars = before ++ (token.text.toList ++ behind) ∧
    token.start = Location.origin.advance before ∧
    token.stop = token.start.advance token.text.toList
  wide : ∀ token ∈ tokens, token.kind ≠ .includePath → token.start.byte < token.stop.byte
  /-- A character outside all tokens is white space. -/
  covered : ∀ before c behind, chars = before ++ c :: behind → isBlank c = true ∨
    ∃ token ∈ tokens, token.start.byte ≤ byteLength before ∧
      byteLength before + c.utf8Size ≤ token.stop.byte
  /-- A path stands right behind the delimiter that opens it. -/
  opened : ∀ front path behind, tokens = front ++ path :: behind → path.kind = .includePath →
    ∃ earlier directive opening, front = earlier ++ [directive, opening] ∧
      Token.OpensPath chars directive opening ∧ path.start = opening.stop
  /-- Right behind every delimiter that opens a path there is one. -/
  followed : ∀ directive ∈ tokens, ∀ opening ∈ tokens, Token.OpensPath chars directive opening →
    ∃ front path behind, tokens = front ++ directive :: opening :: path :: behind ∧
      path.kind = .includePath ∧ path.start = opening.stop

theorem covered_of_tokenize {chars before behind : List Char} {c : Char}
    (h : chars = before ++ c :: behind) :
    isBlank c = true ∨ ∃ token ∈ tokenize chars, token.start.byte ≤ byteLength before ∧
      byteLength before + c.utf8Size ≤ token.stop.byte := by
  rcases @place_covers .origin true (pieces chars) before behind c ((text_pieces chars).trans h)
    with ⟨piece, hmem, hkind, hc⟩ | ⟨token, hmem, hstart, hstop⟩
  · exact .inl (blank_of_mem_pieces hmem hkind c hc)
  · have horigin : Location.origin.byte = 0 := rfl
    exact .inr ⟨token, hmem, by omega, by omega⟩

/-- The tokens of a text tile it, and each step that cuts off the pieces at the front of what is
left takes at least one character. -/
theorem tokenize_tiles (chars : List Char) :
    Tiles chars (tokenize chars) ∧
      ∀ before rest, chars = before ++ rest → rest ≠ [] →
        0 < Piece.total (Scan.nextPieces rest) ∧
          pieces rest = Scan.nextPieces rest ++
            pieces (rest.drop (Piece.total (Scan.nextPieces rest))) where
  left :=
    { ordered := tokenize_pairwise chars
      placed := fun _ hmem => exists_text_of_mem_tokenize hmem
      wide := fun _ hmem => width_of_mem_tokenize hmem
      covered := fun _ _ _ => covered_of_tokenize
      opened := fun _ _ _ hsplit hkind => opensPath_of_path hsplit hkind
      followed := fun _ hdirective _ hopening h => path_of_opensPath hdirective hopening h }
  right _ _ _ hne := ⟨Scan.nextPieces_total_pos hne, pieces_eq hne⟩

end Azsl
