/-
Azsl.Proofs.Token.Cut — where a text may be cut in two.

Pieces come in groups: a token on its own, or an include with the path that follows it. At the
bounds of a group a text is cut into the same pieces as its two parts are. A stretch between two
such bounds that ends on a closing token, or is an include whose path is closed, is cut the same
way whatever stands around it.
-/
import Azsl.Proofs.Token.Stable
import Mathlib.Data.List.Basic
import Mathlib.Data.List.TakeWhile

namespace Azsl

namespace Scan

/-! ## Include paths -/

/-- White space as pieces. -/
def gap (blanks : List Char) : List Piece :=
  if blanks.isEmpty then [] else [⟨none, blanks⟩]

theorem text_gap (blanks : List Char) : Piece.text (gap blanks) = blanks := by
  cases blanks <;> simp [gap]

/-- A path with its delimiters, if one starts here. -/
def pathPieces : List Char → List Piece
  | [] => []
  | c :: inner =>
    match closing? c with
    | none => []
    | some close =>
      [⟨some .punct, [c]⟩, ⟨some .includePath, inner.takeWhile isPathChar⟩]
        ++ (if (inner.drop (inner.takeWhile isPathChar).length).head? = some close
          then [⟨some .punct, [close]⟩] else [])

/-- The characters between `#include` and its path. -/
def isGapChar (c : Char) : Bool := c == ' ' || c == '\t'

theorem includeTail_eq (chars : List Char) :
    includeTail chars = gap (chars.takeWhile isGapChar)
      ++ pathPieces (chars.drop (chars.takeWhile isGapChar).length) := by
  unfold includeTail pathPieces gap isGapChar
  simp only
  generalize chars.takeWhile (fun c => c == ' ' || c == '\t') = blanks
  cases chars.drop blanks.length with
  | nil => simp
  | cons c inner =>
    simp only
    cases closing? c with
    | none => simp
    | some close => simp

theorem takeWhile_firm {p : Char → Bool} (front : List Char) {c : Char} (behind behind' : List Char)
    (hle : ((front ++ c :: behind).takeWhile p).length ≤ front.length) :
    (front ++ c :: behind').takeWhile p = (front ++ c :: behind).takeWhile p := by
  induction front with
  | nil =>
    cases hp : p c with
    | false => simp [hp]
    | true => simp [hp] at hle
  | cons first rest ih =>
    cases hp : p first with
    | false => simp [hp]
    | true =>
      simp only [List.cons_append, List.takeWhile_cons, hp, if_true, List.length_cons] at hle ⊢
      rw [ih (by omega)]

theorem closing?_hard {c : Char} (hhard : isHard c = true) : closing? c = none := by
  rcases isHard_cases hhard with rfl | rfl | rfl <;> decide

theorem pathPieces_firm (front : List Char) {c : Char} (behind behind' : List Char)
    (hhard : isHard c = true) (hle : Piece.total (pathPieces (front ++ c :: behind)) ≤ front.length) :
    pathPieces (front ++ c :: behind') = pathPieces (front ++ c :: behind) := by
  cases front with
  | nil => simp [pathPieces, closing?_hard hhard]
  | cons first inner =>
    simp only [List.cons_append, pathPieces] at hle ⊢
    cases hclosing : closing? first with
    | none => rfl
    | some close =>
      simp only [hclosing, Piece.total, List.length_cons] at hle
      have hpath : ((inner ++ c :: behind).takeWhile isPathChar).length ≤ inner.length := by omega
      simp only [takeWhile_firm inner behind behind' hpath]
      generalize (inner ++ c :: behind).takeWhile isPathChar = path at hpath
      have hhead : ((inner ++ c :: behind').drop path.length).head?
          = ((inner ++ c :: behind).drop path.length).head? := by
        rw [List.drop_append_of_le_length hpath, List.drop_append_of_le_length hpath]
        cases inner.drop path.length <;> rfl
      rw [hhead]

theorem includeTail_firm (front : List Char) {c : Char} (behind behind' : List Char)
    (hhard : isHard c = true)
    (hle : Piece.total (includeTail (front ++ c :: behind)) ≤ front.length) :
    includeTail (front ++ c :: behind') = includeTail (front ++ c :: behind) := by
  have hgap : isGapChar c = false := by rcases isHard_cases hhard with rfl | rfl | rfl <;> decide
  have hlength : (front.takeWhile isGapChar).length ≤ front.length :=
    (List.takeWhile_prefix _).length_le
  rw [includeTail_eq, Blind.takeWhile_hard hgap,
    List.drop_append_of_le_length hlength] at hle
  rw [includeTail_eq, includeTail_eq, Blind.takeWhile_hard hgap, Blind.takeWhile_hard hgap,
    List.drop_append_of_le_length hlength, List.drop_append_of_le_length hlength]
  rw [pathPieces_firm _ behind behind' hhard]
  rw [Piece.total_eq_length, Piece.text_append, text_gap, List.length_append,
    ← Piece.total_eq_length] at hle
  rw [List.length_drop]
  omega

/-! ## Groups -/

/-- The piece of a quote that opens no string. -/
def stray : Piece := ⟨some .unknown, ['"']⟩

theorem nextPieces_token {chars : List Char} (h : chars.takeWhile isBlank = []) :
    nextPieces chars = ⟨some (nextToken chars).1, chars.take (nextToken chars).2⟩ ::
      (if (nextToken chars).1 = .includeDirective then includeTail (chars.drop (nextToken chars).2)
        else []) := by
  unfold nextPieces
  simp only [h, List.isEmpty_nil, if_true]
  split <;> rfl

theorem nextPieces_blank {chars : List Char} (h : chars.takeWhile isBlank ≠ []) :
    nextPieces chars = [⟨none, chars.takeWhile isBlank⟩] := by
  unfold nextPieces
  simp [h]

theorem nextPieces_firm (front : List Char) {c : Char} (behind behind' : List Char)
    (hhard : isHard c = true)
    (hle : Piece.total (nextPieces (front ++ c :: behind)) ≤ front.length)
    (hstray : stray ∉ nextPieces (front ++ c :: behind)) :
    nextPieces (front ++ c :: behind') = nextPieces (front ++ c :: behind) := by
  have hblank : isBlank c = false := by rcases isHard_cases hhard with rfl | rfl | rfl <;> decide
  have hsame := Blind.takeWhile_hard hblank front
  by_cases hnone : front.takeWhile isBlank = []
  · have hnone : ∀ behind, (front ++ c :: behind).takeWhile isBlank = [] :=
      fun behind => (hsame behind).trans hnone
    rw [nextPieces_token (hnone behind)] at hle hstray
    rw [nextPieces_token (hnone behind), nextPieces_token (hnone behind')]
    rw [Piece.total, List.length_take] at hle
    have hlength : (nextToken (front ++ c :: behind)).2 ≤ front.length := by
      rw [List.length_append, List.length_cons] at hle
      omega
    have htoken := nextToken_firm front behind behind' hhard hlength (by
      intro htoken hquote
      obtain ⟨rest, hrest⟩ := List.head?_eq_some_iff.mp hquote
      refine hstray (List.mem_cons.mpr (.inl ?_))
      rw [htoken, hrest]
      rfl)
    rw [htoken]
    generalize nextToken (front ++ c :: behind) = token at hle hlength
    rw [List.take_append_of_le_length hlength, List.take_append_of_le_length hlength]
    split
    · rename_i hinclude
      rw [if_pos hinclude, List.drop_append_of_le_length hlength] at hle
      rw [List.drop_append_of_le_length hlength, List.drop_append_of_le_length hlength,
        includeTail_firm _ behind behind' hhard]
      rw [List.length_append, List.length_cons] at hle
      rw [List.length_drop]
      omega
    · rfl
  · rw [nextPieces_blank (by rwa [hsame]), nextPieces_blank (by rwa [hsame]), hsame, hsame]

theorem nextToken_include {rest : List Char} (h : ∀ c ∈ rest.head?, isWordChar c = false) :
    nextToken ("#include".toList ++ rest) = (.includeDirective, 8) := by
  have hdirective : includeDirective ("#include".toList ++ rest) = 8 := by
    unfold includeDirective
    simp only
    rw [if_pos (List.isPrefixOf_iff_prefix.mpr (List.prefix_append _ _)), List.drop_left]
    cases rest with
    | nil => rfl
    | cons c rest => simp [h c rfl]
  have hcomment : comment ("#include".toList ++ rest) = 0 := rfl
  rw [nextToken_eq, hcomment, hdirective]
  rfl

theorem nextToken_eq_include {chars : List Char}
    (h : (nextToken chars).1 = .includeDirective) :
    (nextToken chars).2 = 8 ∧ "#include".toList ++ chars.drop 8 = chars := by
  rw [nextToken_eq] at h ⊢
  unfold plainToken at h
  split_ifs at h with _ hpos
  rw [if_neg ‹_›, if_pos hpos]
  unfold includeDirective at hpos ⊢
  simp only at hpos ⊢
  split at hpos
  · rename_i hfound
    rw [if_pos hfound]
    refine ⟨?_, List.prefix_iff_eq_append.mp (List.isPrefixOf_iff_prefix.mp hfound)⟩
    split at hpos
    · split at hpos
      · omega
      · rename_i hword
        exact if_neg hword
    · rfl
  · omega

/-- The parts of an include whose path is closed. -/
structure ClosedInclude (blanks path : List Char) (opening closing : Char) : Prop where
  blanks : ∀ c ∈ blanks, isGapChar c = true
  path : ∀ c ∈ path, isPathChar c = true
  closing : closing? opening = some closing

/-- The pieces of an include whose path is closed. -/
def closedInclude (blanks path : List Char) (opening closing : Char) : List Piece :=
  ⟨some .includeDirective, "#include".toList⟩ :: gap blanks ++
    [⟨some .punct, [opening]⟩, ⟨some .includePath, path⟩, ⟨some .punct, [closing]⟩]

theorem closing?_eq_some {opening closing : Char} (h : closing? opening = some closing) :
    opening = '"' ∧ closing = '"' ∨ opening = '<' ∧ closing = '>' := by
  unfold closing? at h
  split_ifs at h with hquote hangle
  · exact .inl ⟨hquote, (Option.some.inj h).symm⟩
  · exact .inr ⟨hangle, (Option.some.inj h).symm⟩

theorem takeWhile_stop {p : Char → Bool} {front : List Char} {c : Char}
    (hfront : ∀ c ∈ front, p c = true) (hc : p c = false) (behind : List Char) :
    (front ++ c :: behind).takeWhile p = front := by
  rw [Blind.takeWhile_hard hc, List.takeWhile_eq_self_iff]
  exact hfront

namespace ClosedInclude

variable {blanks path : List Char} {opening closing : Char}

theorem pathPieces_eq (h : ClosedInclude blanks path opening closing) (behind : List Char) :
    pathPieces (opening :: (path ++ closing :: behind))
      = [⟨some .punct, [opening]⟩, ⟨some .includePath, path⟩, ⟨some .punct, [closing]⟩] := by
  have hclosing : isPathChar closing = false := by
    rcases closing?_eq_some h.closing with ⟨-, rfl⟩ | ⟨-, rfl⟩ <;> decide
  simp [pathPieces, h.closing, takeWhile_stop h.path hclosing]

/-- An include whose path is closed is cut the same way whatever follows it. -/
theorem nextPieces_eq (h : ClosedInclude blanks path opening closing) (behind : List Char) :
    nextPieces (Piece.text (closedInclude blanks path opening closing) ++ behind)
      = closedInclude blanks path opening closing := by
  have htext : Piece.text (closedInclude blanks path opening closing) ++ behind
      = "#include".toList ++ (blanks ++ opening :: (path ++ closing :: behind)) := by
    simp [closedInclude, text_gap]
  have hgap : isGapChar opening = false := by
    rcases closing?_eq_some h.closing with ⟨rfl, -⟩ | ⟨rfl, -⟩ <;> decide
  have hword : ∀ c ∈ (blanks ++ opening :: (path ++ closing :: behind)).head?,
      isWordChar c = false := by
    intro c hc
    cases blanks with
    | nil =>
      obtain rfl : opening = c := by simpa using hc
      rcases closing?_eq_some h.closing with ⟨rfl, -⟩ | ⟨rfl, -⟩ <;> decide +kernel
    | cons first rest =>
      obtain rfl : first = c := by simpa using hc
      have hfirst := h.blanks first List.mem_cons_self
      simp only [isGapChar, Bool.or_eq_true, beq_iff_eq] at hfirst
      rcases hfirst with rfl | rfl <;> decide +kernel
  rw [htext, nextPieces_token (by rfl), nextToken_include hword]
  simp only [if_true]
  rw [show (8 : Nat) = "#include".toList.length from rfl, List.take_left, List.drop_left,
    includeTail_eq, takeWhile_stop h.blanks hgap, List.drop_left, h.pathPieces_eq]
  rfl

end ClosedInclude

/-- A path that ends on a delimiter is closed. -/
theorem pathPieces_closed {chars : List Char} {c : Char}
    (h : (pathPieces chars).getLast? = some ⟨some .punct, [c]⟩) :
    ∃ opening path closing behind, chars = opening :: (path ++ closing :: behind) ∧
      closing? opening = some closing ∧ ∀ c ∈ path, isPathChar c = true := by
  cases chars with
  | nil => cases h
  | cons opening inner =>
    simp only [pathPieces] at h
    cases hclosing : closing? opening with
    | none => simp [hclosing] at h
    | some closing =>
      simp only [hclosing] at h
      split at h
      · rename_i hhead
        obtain ⟨behind, hbehind⟩ := List.head?_eq_some_iff.mp hhead
        refine ⟨opening, inner.takeWhile isPathChar, closing, behind, ?_, hclosing,
          fun c hc => List.mem_takeWhile_imp hc⟩
        rw [← hbehind, takeWhile_append_drop]
      · simp at h

/-- An include that ends on a delimiter is closed. -/
theorem closed_of_getLast {chars : List Char} {c : Char}
    (hkind : (nextToken chars).1 = .includeDirective) (hblank : chars.takeWhile isBlank = [])
    (h : (nextPieces chars).getLast? = some ⟨some .punct, [c]⟩) :
    ∃ blanks path opening closing, ClosedInclude blanks path opening closing ∧
      nextPieces chars = closedInclude blanks path opening closing := by
  obtain ⟨hlength, hchars⟩ := nextToken_eq_include hkind
  rw [nextPieces_token hblank, hkind, if_pos rfl, hlength, includeTail_eq] at h
  generalize hblanks : (chars.drop 8).takeWhile isGapChar = blanks at h
  have hsplit : blanks ++ (chars.drop 8).drop blanks.length = chars.drop 8 := by
    rw [← hblanks]
    exact takeWhile_append_drop _ _
  have hlast : (pathPieces ((chars.drop 8).drop blanks.length)).getLast?
      = some ⟨some .punct, [c]⟩ := by
    cases hpieces : pathPieces ((chars.drop 8).drop blanks.length) with
    | nil =>
      rw [hpieces, List.append_nil] at h
      unfold gap at h
      split at h <;> simp at h
    | cons piece others =>
      rw [hpieces, ← List.cons_append, List.getLast?_append] at h
      simpa using h
  obtain ⟨opening, path, closing, behind, hdrop, hclosing, hpath⟩ := pathPieces_closed hlast
  have hclosed : ClosedInclude blanks path opening closing :=
    ⟨fun c hc => by rw [← hblanks] at hc; exact List.mem_takeWhile_imp hc, hpath, hclosing⟩
  refine ⟨blanks, path, opening, closing, hclosed, ?_⟩
  have htext : chars = Piece.text (closedInclude blanks path opening closing) ++ behind := by
    rw [← hchars, ← hsplit, hdrop]
    simp [closedInclude, text_gap]
  rw [htext]
  exact hclosed.nextPieces_eq behind

theorem plainToken_quote (rest : List Char) : (nextToken ('"' :: rest)).1 ≠ .punct := by
  by_cases hstring : stringLiteral ('"' :: rest) = 0
  · rw [nextToken_stray hstring]
    simp
  · have hcomment : comment ('"' :: rest) = 0 := by simp [comment]
    have hinclude : includeDirective ('"' :: rest) = 0 := by simp [includeDirective]
    have hdirective : directive ('"' :: rest) = 0 := by simp [directive]
    rw [nextToken_eq, hcomment, hinclude, hdirective, if_pos (Nat.pos_of_ne_zero hstring)]
    simp

/-- A group that ends on a closing token is that token, or an include whose path is closed. -/
theorem nextPieces_closes {chars : List Char} {c : Char}
    (h : (nextPieces chars).getLast? = some ⟨some .punct, [c]⟩) :
    nextPieces chars = [⟨some .punct, [c]⟩] ∧ c ≠ '"' ∧ chars.head? = some c ∨
      ∃ blanks path opening closing, ClosedInclude blanks path opening closing ∧
        nextPieces chars = closedInclude blanks path opening closing := by
  by_cases hblank : chars.takeWhile isBlank = []
  · by_cases hkind : (nextToken chars).1 = .includeDirective
    · exact .inr (closed_of_getLast hkind hblank h)
    · rw [nextPieces_token hblank, if_neg hkind, List.getLast?_singleton, Option.some.injEq] at h
      have hpunct : (nextToken chars).1 = .punct := Option.some.inj (congrArg Piece.kind h)
      have htake : chars.take (nextToken chars).2 = [c] := congrArg Piece.chars h
      refine .inl ⟨by rw [nextPieces_token hblank, if_neg hkind, h], ?_⟩
      cases chars with
      | nil => simp at htake
      | cons first rest =>
        have hpos := nextToken_length_pos (first :: rest)
        obtain ⟨length, hlength⟩ := Nat.exists_eq_succ_of_ne_zero (Nat.ne_of_gt hpos)
        rw [hlength, List.take_succ_cons] at htake
        obtain ⟨rfl, -⟩ := List.cons.inj htake
        refine ⟨?_, rfl⟩
        rintro rfl
        exact plainToken_quote rest hpunct
  · rw [nextPieces_blank hblank] at h
    simp at h

theorem nextPieces_hard {c : Char} (hhard : isHard c = true) (rest : List Char) :
    nextPieces (c :: rest) = [⟨some .punct, [c]⟩] := by
  have hblank : isBlank c = false := by rcases isHard_cases hhard with rfl | rfl | rfl <;> decide
  rw [nextPieces_token (by simp [hblank]), nextToken_hard hhard]
  rfl

end Scan

/-! ## Cuts -/

/-- A text is cut into some pieces and a rest at the bounds of groups. -/
inductive Cut : List Char → List Piece → List Char → Prop
  | done (chars : List Char) : Cut chars [] chars
  | group {chars row rest} : chars ≠ [] →
      Cut (chars.drop (Piece.total (Scan.nextPieces chars))) row rest →
      Cut chars (Scan.nextPieces chars ++ row) rest

namespace Cut

variable {chars rest : List Char} {row : List Piece}

theorem text_append (h : Cut chars row rest) : Piece.text row ++ rest = chars := by
  induction h with
  | done chars => rfl
  | group _ _ ih =>
    rw [Piece.text_append, List.append_assoc, ih]
    exact text_nextPieces_append _

theorem pieces_eq (h : Cut chars row rest) : pieces chars = row ++ pieces rest := by
  induction h with
  | done chars => rfl
  | group hne _ ih => rw [Azsl.pieces_eq hne, ih, List.append_assoc]

/-- A group stands at the front of its own text. -/
theorem single {group : List Piece} {behind : List Char} (hne : Piece.text group ≠ [])
    (h : Scan.nextPieces (Piece.text group ++ behind) = group) :
    Cut (Piece.text group ++ behind) group behind := by
  have hcut : Cut (Piece.text group ++ behind) _ _ := .group (by simp [hne]) (.done _)
  rw [h, Piece.total_eq_length, List.drop_left, List.append_nil] at hcut
  exact hcut

/-- A quote as punctuation belongs to an include. -/
theorem include_of_quote (h : Cut chars row rest)
    (hlast : row.getLast? = some ⟨some .punct, ['"']⟩) :
    (⟨some .includeDirective, "#include".toList⟩ : Piece) ∈ row := by
  induction h with
  | done => cases hlast
  | @group chars row rest hne h ih =>
    cases hrow : row with
    | nil =>
      rw [hrow, List.append_nil] at hlast
      rcases Scan.nextPieces_closes hlast with ⟨-, hquote, -⟩ | ⟨_, _, _, _, -, heq⟩
      · exact absurd rfl hquote
      · rw [heq]
        exact List.mem_append_left _ List.mem_cons_self
    | cons piece others =>
      rw [hrow, List.getLast?_append_of_ne_nil _ (List.cons_ne_nil _ _), ← hrow] at hlast
      exact List.mem_append_right _ (hrow ▸ ih hlast)

/-- The first group stays if all that follows it does and ends on a hard character. -/
theorem group_moves
    (h : Cut (chars.drop (Piece.total (Scan.nextPieces chars))) row rest) {c : Char}
    (hlast : row.getLast? = some ⟨some .punct, [c]⟩) (hhard : Scan.isHard c = true)
    (hstray : Scan.stray ∉ Scan.nextPieces chars) {rest' : List Char}
    (hrest : Cut (Piece.text row ++ rest') row rest') :
    Cut (Piece.text (Scan.nextPieces chars ++ row) ++ rest') (Scan.nextPieces chars ++ row)
      rest' := by
  obtain ⟨before, hbefore⟩ := List.getLast?_eq_some_iff.mp hlast
  have htext : Piece.text row = Piece.text before ++ [c] := by
    rw [hbefore]
    simp
  generalize hgroup : Scan.nextPieces chars = group at *
  have hchars : chars = (Piece.text group ++ Piece.text before) ++ c :: rest := by
    rw [← text_nextPieces_append chars, hgroup, ← h.text_append, htext]
    simp
  have hfirm := Scan.nextPieces_firm (Piece.text group ++ Piece.text before) rest rest' hhard
  rw [← hchars, hgroup, Piece.total_eq_length, List.length_append] at hfirm
  have hsame := hfirm (Nat.le_add_right _ _) hstray
  have hwhole : Piece.text (group ++ row) ++ rest'
      = (Piece.text group ++ Piece.text before) ++ c :: rest' := by
    rw [Piece.text_append, htext]
    simp
  have hdrop : ((Piece.text group ++ Piece.text before) ++ c :: rest').drop (Piece.total group)
      = Piece.text row ++ rest' := by
    rw [Piece.total_eq_length, List.append_assoc, List.drop_left, htext]
    simp
  have hcut : Cut ((Piece.text group ++ Piece.text before) ++ c :: rest')
      (Scan.nextPieces ((Piece.text group ++ Piece.text before) ++ c :: rest') ++ row) rest' :=
    .group (by simp) (by rwa [hsame, hdrop])
  rwa [hsame, ← hwhole] at hcut

/-- A stretch that ends on a closing token is cut the same way before any other rest. A quote
closes only the path of an include that the stretch starts with. -/
theorem moves (h : Cut chars row rest) {c : Char}
    (hlast : row.getLast? = some ⟨some .punct, [c]⟩)
    (hclosing : Scan.isHard c = true ∨
      c = '"' ∧ ⟨some .includeDirective, "#include".toList⟩ ∉ row.tail)
    (hstray : Scan.stray ∉ row) (rest' : List Char) :
    Cut (Piece.text row ++ rest') row rest' := by
  induction h with
  | done => cases hlast
  | @group chars row rest hne h ih =>
    have hgroup : Scan.nextPieces chars ≠ [] := by
      intro hnil
      have hpos := Scan.nextPieces_total_pos hne
      simp [hnil, Piece.total] at hpos
    by_cases hrow : row = []
    · subst hrow
      rw [List.append_nil] at hlast ⊢
      obtain ⟨before, hbefore⟩ := List.getLast?_eq_some_iff.mp hlast
      refine single (by rw [hbefore]; simp) ?_
      rcases Scan.nextPieces_closes hlast with ⟨heq, hquote, -⟩ | ⟨_, _, _, _, hclosed, heq⟩
      · have hhard := hclosing.resolve_right fun hc => hquote hc.1
        rw [heq]
        exact Scan.nextPieces_hard hhard rest'
      · rw [heq]
        exact hclosed.nextPieces_eq rest'
    · have hlast' : row.getLast? = some ⟨some .punct, [c]⟩ := by
        rw [List.getLast?_append_of_ne_nil _ hrow] at hlast
        exact hlast
      have hhard : Scan.isHard c = true := by
        refine hclosing.resolve_right ?_
        rintro ⟨rfl, hnone⟩
        refine hnone ?_
        rw [List.tail_append_of_ne_nil hgroup]
        exact List.mem_append_right _ (h.include_of_quote hlast')
      exact h.group_moves hlast' hhard (fun hmem => hstray (List.mem_append_left _ hmem))
        (ih hlast' (.inl hhard) fun hmem => hstray (List.mem_append_right _ hmem))

end Cut

/-! ## Where a text must not be cut -/

/-- Pieces that end inside an include: behind the directive, behind the delimiter that opens its
path, or behind the path. -/
structure Unfinished (row before more : List Piece) (blanks : List Char) : Prop where
  row : row = before ++ ⟨some .includeDirective, "#include".toList⟩ :: Scan.gap blanks ++ more
  blanks : ∀ c ∈ blanks, Scan.isGapChar c = true
  more : more = [] ∨ ∃ opening, (opening = '"' ∨ opening = '<') ∧
    (more = [⟨some .punct, [opening]⟩] ∨
      ∃ path, (∀ c ∈ path, Scan.isPathChar c = true) ∧
        more = [⟨some .punct, [opening]⟩, ⟨some .includePath, path⟩])

/-- What may come behind the front of an include. -/
structure JoinsInclude (more : List Piece) (piece : Piece) : Prop where
  directive : piece.kind ≠ some .includeDirective
  path : piece.kind = some .includePath → ∃ opening, more = [⟨some .punct, [opening]⟩]

namespace Scan

/-- The pieces at the front of a path, if not all of it. -/
theorem pathPieces_front {chars : List Char} {front : List Piece} {piece : Piece}
    {others : List Piece} (h : pathPieces chars = front ++ piece :: others) :
    JoinsInclude front piece ∧
    (front = [] ∨ ∃ opening, (opening = '"' ∨ opening = '<') ∧
      (front = [⟨some .punct, [opening]⟩] ∨
        ∃ path, (∀ c ∈ path, isPathChar c = true) ∧
          front = [⟨some .punct, [opening]⟩, ⟨some .includePath, path⟩])) := by
  cases chars with
  | nil => simp [pathPieces] at h
  | cons opening inner =>
    simp only [pathPieces] at h
    cases hclosing : closing? opening with
    | none => simp [hclosing] at h
    | some closing =>
      simp only [hclosing] at h
      have hopening : opening = '"' ∨ opening = '<' :=
        (closing?_eq_some hclosing).imp And.left And.left
      have hpath : ∀ c ∈ inner.takeWhile isPathChar, isPathChar c = true :=
        fun c hc => List.mem_takeWhile_imp hc
      simp only [List.cons_append, List.nil_append] at h
      match front with
      | [] =>
        obtain ⟨hpiece, -⟩ := List.cons.inj h
        exact ⟨⟨by simp [← hpiece], by simp [← hpiece]⟩, .inl rfl⟩
      | [first] =>
        obtain ⟨hfirst, hrest⟩ := List.cons.inj h
        obtain ⟨hpiece, -⟩ := List.cons.inj hrest
        exact ⟨⟨by simp [← hpiece], fun _ => ⟨opening, by rw [hfirst]⟩⟩,
          .inr ⟨opening, hopening, .inl (by rw [hfirst])⟩⟩
      | first :: second :: third =>
        obtain ⟨hfirst, hrest⟩ := List.cons.inj h
        obtain ⟨hsecond, hrest⟩ := List.cons.inj hrest
        split at hrest
        · cases third with
          | nil =>
            obtain ⟨hpiece, -⟩ := List.cons.inj hrest
            exact ⟨⟨by simp [← hpiece], by simp [← hpiece]⟩,
              .inr ⟨opening, hopening, .inr ⟨_, hpath, by rw [hfirst, hsecond]⟩⟩⟩
          | cons third more => simp at hrest
        · simp at hrest

/-- The pieces at the front of an include, if not all of it. -/
theorem includeTail_front {chars : List Char} {front : List Piece} {piece : Piece}
    {others : List Piece} (h : includeTail chars = front ++ piece :: others) :
    ∃ blanks more, JoinsInclude more piece ∧
      Unfinished (⟨some .includeDirective, "#include".toList⟩ :: front) [] more blanks := by
  rw [includeTail_eq] at h
  rcases List.append_eq_append_iff.mp h with ⟨more, rfl, hpath⟩ | ⟨more, hgap, hpath⟩
  · obtain ⟨hkind, hmore⟩ := pathPieces_front hpath
    exact ⟨chars.takeWhile isGapChar, more, hkind, by simp,
      fun c hc => List.mem_takeWhile_imp hc, hmore⟩
  · cases more with
    | nil =>
      have hpath : pathPieces (chars.drop (chars.takeWhile isGapChar).length)
          = [] ++ piece :: others := hpath.symm
      rw [List.append_nil] at hgap
      obtain ⟨hkind, hmore⟩ := pathPieces_front hpath
      exact ⟨chars.takeWhile isGapChar, [], hkind, by simp [hgap],
        fun c hc => List.mem_takeWhile_imp hc, hmore⟩
    | cons first more =>
      obtain ⟨rfl, -⟩ := List.cons.inj hpath
      -- The gap is a single piece, so nothing stands before it.
      have hfront : front = [] := by
        unfold gap at hgap
        split at hgap
        · simp at hgap
        · cases front with
          | nil => rfl
          | cons first front => simp at hgap
      subst hfront
      refine ⟨[], [], ?_, by simp [gap], by simp, .inl rfl⟩
      unfold gap at hgap
      split at hgap
      · cases hgap
      · obtain ⟨rfl, -⟩ := List.cons.inj hgap
        exact ⟨by simp, by simp⟩

end Scan

/-- Between any two pieces a text may be cut, unless they belong to the same include. -/
theorem cut_or_unfinished {chars : List Char} {row others : List Piece}
    (h : pieces chars = row ++ others) :
    (∃ rest, Cut chars row rest ∧ pieces rest = others) ∨
      ∃ before more blanks, Unfinished row before more blanks ∧
        ∀ piece ∈ others.head?, JoinsInclude more piece := by
  induction chars using pieces_induction generalizing row with
  | nil =>
    obtain ⟨rfl, rfl⟩ := List.append_eq_nil_iff.mp h.symm
    exact .inl ⟨[], .done [], rfl⟩
  | step chars hne ih =>
    rw [pieces_eq hne] at h
    rcases List.append_eq_append_iff.mp h with ⟨more, rfl, hmore⟩ | ⟨more, hgroup, hmore⟩
    · rcases ih hmore with ⟨rest, hcut, hrest⟩ | ⟨before, tail, blanks, hunfinished, hhead⟩
      · exact .inl ⟨rest, .group hne hcut, hrest⟩
      · refine .inr ⟨Scan.nextPieces chars ++ before, tail, blanks,
          ⟨?_, hunfinished.blanks, hunfinished.more⟩, hhead⟩
        rw [hunfinished.row]
        simp
    · cases more with
      | nil =>
        rw [List.append_nil] at hgroup
        refine .inl ⟨_, hgroup ▸ ?_, hmore.symm⟩
        have hcut : Cut chars _ _ := .group hne (.done _)
        rwa [List.append_nil] at hcut
      | cons piece more =>
        cases row with
        | nil => exact .inl ⟨chars, .done chars, (pieces_eq hne).trans (by rw [h]; rfl)⟩
        | cons first row =>
          refine .inr ?_
          by_cases hblank : chars.takeWhile isBlank = []
          · rw [Scan.nextPieces_token hblank] at hgroup
            obtain ⟨rfl, htail⟩ := List.cons.inj hgroup
            split at htail
            · rename_i hkind
              obtain ⟨hlength, hchars⟩ := Scan.nextToken_eq_include hkind
              obtain ⟨blanks, tail, hpiece, hunfinished⟩ := Scan.includeTail_front htail
              have htake : chars.take 8 = "#include".toList := by
                rw [← hchars]
                rfl
              rw [hkind, hlength, htake]
              exact ⟨[], tail, blanks, hunfinished, by simpa [hmore] using hpiece⟩
            · simp at htail
          · rw [Scan.nextPieces_blank hblank] at hgroup
            simp at hgroup

theorem Scan.nextToken_ne_includePath (chars : List Char) : (nextToken chars).1 ≠ .includePath := by
  unfold nextToken
  simp only
  split_ifs <;> simp

/-- No group starts with a path. -/
theorem kind_ne_includePath {chars : List Char} {piece : Piece} {others : List Piece}
    (h : pieces chars = piece :: others) : piece.kind ≠ some .includePath := by
  have hne : chars ≠ [] := by
    rintro rfl
    cases h
  rw [pieces_eq hne] at h
  by_cases hblank : chars.takeWhile isBlank = []
  · rw [Scan.nextPieces_token hblank, List.cons_append] at h
    obtain ⟨rfl, -⟩ := List.cons.inj h
    simpa using Scan.nextToken_ne_includePath chars
  · rw [Scan.nextPieces_blank hblank, List.cons_append] at h
    obtain ⟨rfl, -⟩ := List.cons.inj h
    simp

end Azsl
