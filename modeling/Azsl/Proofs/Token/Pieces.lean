/-
Azsl.Proofs.Token.Pieces — cutting a text into pieces loses nothing.

Every step takes the pieces at the front of what is left, at least one character. So the pieces
in a row are the text, and the tokens made of them stand where their characters do.
-/
import Azsl.Proofs.Grammar.Nesting
import Azsl.Proofs.Text.Bytes
import Azsl.Token.Scan

namespace Azsl

/-! ## One step -/

namespace Piece

/-- The characters of pieces in a row. -/
def text (pieces : List Piece) : List Char :=
  pieces.flatMap (·.chars)

@[simp] theorem text_nil : text [] = [] := rfl

@[simp] theorem text_cons (piece : Piece) (rest : List Piece) :
    text (piece :: rest) = piece.chars ++ text rest := rfl

@[simp] theorem text_append (left right : List Piece) :
    text (left ++ right) = text left ++ text right := by
  simp [text]

theorem total_eq_length (pieces : List Piece) : total pieces = (text pieces).length := by
  induction pieces with
  | nil => rfl
  | cons piece rest ih => simp [total, ih]

end Piece

namespace Scan

theorem nextToken_length_pos (chars : List Char) : 0 < (nextToken chars).2 := by
  unfold nextToken
  simp only
  split_ifs <;> simp only <;> omega

/-- What goes on with a front part of the rest is a front part of the whole. -/
theorem append_prefix_of {left right whole part : List Char} (h : left ++ right = whole)
    (hp : part <+: right) : left ++ part <+: whole :=
  h ▸ (List.prefix_append_right_inj left).mpr hp

theorem takeWhile_append_drop (p : Char → Bool) (chars : List Char) :
    chars.takeWhile p ++ chars.drop (chars.takeWhile p).length = chars :=
  List.prefix_iff_eq_append.mp (List.takeWhile_prefix p)

theorem includeTail_text (chars : List Char) : Piece.text (includeTail chars) <+: chars := by
  unfold includeTail
  simp only
  generalize hblanks : chars.takeWhile (fun c => c == ' ' || c == '\t') = blanks
  have hsplit : blanks ++ chars.drop blanks.length = chars := by
    rw [← hblanks]
    exact takeWhile_append_drop _ _
  have hgap : Piece.text (if blanks.isEmpty then [] else [⟨none, blanks⟩]) = blanks := by
    split
    · rename_i hempty
      simp [List.isEmpty_iff.mp hempty]
    · simp
  split
  · rw [hgap]
    exact ⟨_, hsplit⟩
  · rename_i c inner hinner
    split
    · rw [hgap]
      exact ⟨_, hsplit⟩
    · rename_i close _
      rw [Piece.text_append, Piece.text_append, hgap, List.append_assoc]
      refine append_prefix_of (hinner ▸ hsplit) ?_
      rw [Piece.text_cons, Piece.text_cons, Piece.text_nil, List.append_nil, List.append_assoc]
      refine append_prefix_of (rfl : [c] ++ inner = c :: inner) ?_
      refine append_prefix_of (takeWhile_append_drop isPathChar inner) ?_
      split
      · rename_i hclose
        rw [Piece.text_cons, Piece.text_nil, List.append_nil]
        cases hdrop : inner.drop (inner.takeWhile isPathChar).length with
        | nil => simp [hdrop] at hclose
        | cons d others =>
          obtain rfl : d = close := by simpa [hdrop] using hclose
          exact ⟨others, rfl⟩
      · exact List.nil_prefix

/-- The pieces at the front of a text are at its front. -/
theorem nextPieces_text (chars : List Char) : Piece.text (nextPieces chars) <+: chars := by
  unfold nextPieces
  simp only
  split
  · split
    · rw [Piece.text_cons]
      exact append_prefix_of (List.take_append_drop (nextToken chars).2 chars)
        (includeTail_text _)
    · simpa using List.take_prefix _ _
  · simpa using List.takeWhile_prefix _

theorem nextPieces_total_pos {chars : List Char} (h : chars ≠ []) :
    0 < Piece.total (nextPieces chars) := by
  have hpos := nextToken_length_pos chars
  have hlen := List.length_pos_iff.mpr h
  unfold nextPieces
  simp only
  split
  · have htake : 0 < (chars.take (nextToken chars).2).length := by
      rw [List.length_take]
      omega
    split
    · simp only [Piece.total]
      omega
    · simp only [Piece.total]
      omega
  · rename_i hblanks
    have : 0 < (chars.takeWhile isBlank).length :=
      List.length_pos_iff.mpr (by simpa using hblanks)
    simp only [Piece.total]
    omega

end Scan

/-! ## All of a text -/

theorem piecesAfter_eq (skip : Nat) (chars : List Char) :
    piecesAfter skip chars = pieces (chars.drop skip) := by
  induction chars generalizing skip with
  | nil => simp [pieces, piecesAfter]
  | cons c rest ih =>
    cases skip with
    | zero => rfl
    | succ n => rw [piecesAfter, ih, List.drop_succ_cons]

/-- A text that is not empty is cut into the pieces at its front and those of the rest. -/
theorem pieces_eq {chars : List Char} (h : chars ≠ []) :
    pieces chars = Scan.nextPieces chars ++
      pieces (chars.drop (Piece.total (Scan.nextPieces chars))) := by
  cases chars with
  | nil => exact absurd rfl h
  | cons c rest =>
    have hpos := Scan.nextPieces_total_pos (List.cons_ne_nil c rest)
    have hdrop : (c :: rest).drop (Piece.total (Scan.nextPieces (c :: rest)))
        = rest.drop (Piece.total (Scan.nextPieces (c :: rest)) - 1) := by
      generalize Piece.total (Scan.nextPieces (c :: rest)) = total at hpos
      cases total with
      | zero => omega
      | succ n => rfl
    rw [hdrop, ← piecesAfter_eq]
    rfl

theorem text_nextPieces_append (chars : List Char) :
    Piece.text (Scan.nextPieces chars) ++ chars.drop (Piece.total (Scan.nextPieces chars))
      = chars := by
  rw [Piece.total_eq_length]
  exact List.prefix_iff_eq_append.mp (Scan.nextPieces_text chars)

/-- What holds of the empty text, and of a text if it holds of the rest behind the pieces at its
front, holds of every text. -/
theorem pieces_induction {motive : List Char → Prop} (chars : List Char) (nil : motive [])
    (step : ∀ chars, chars ≠ [] →
      motive (chars.drop (Piece.total (Scan.nextPieces chars))) → motive chars) :
    motive chars := by
  induction h : chars.length using Nat.strongRecOn generalizing chars with
  | ind n ih =>
    by_cases hne : chars = []
    · rw [hne]
      exact nil
    · refine step chars hne (ih _ ?_ _ rfl)
      have hpos := Scan.nextPieces_total_pos hne
      have hlen := List.length_pos_iff.mpr hne
      rw [List.length_drop]
      omega

/-- The pieces in a row are the text. -/
theorem text_pieces (chars : List Char) : Piece.text (pieces chars) = chars := by
  induction chars using pieces_induction with
  | nil => rfl
  | step chars hne ih => rw [pieces_eq hne, Piece.text_append, ih, text_nextPieces_append]

end Azsl
