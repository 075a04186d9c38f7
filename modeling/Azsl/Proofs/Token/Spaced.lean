/-
Azsl.Proofs.Token.Spaced — the tokens of words in a row.

A number or a name reads on as long as it can, and so does an operator. Before a space, a
semicolon or the end of a line each of them ends where it does when it stands alone, so that the
tokens of a text that is written with a space between its words are those of its words
(`tokenize_spaced`).
-/
import Azsl.Proofs.Text.Positions
import Azsl.Proofs.Token.Bound

namespace Azsl

namespace Scan

/-! ## What reads no further than a break -/

/-- The characters that separate words. -/
def isSeparator (c : Char) : Bool :=
  c == ' ' || c == ';'

theorem isSeparator_cases {c : Char} (h : isSeparator c = true) : c = ' ' ∨ c = ';' := by
  simpa [isSeparator] using h

/-- The characters before which numbers and names end: separators, and those that end a line. -/
def isBreak (c : Char) : Bool :=
  isSeparator c || c == '\n' || c == '\r'

theorem isBreak_cases {c : Char} (h : isBreak c = true) :
    c = ' ' ∨ c = ';' ∨ c = '\n' ∨ c = '\r' := by
  simpa [isBreak, isSeparator, or_assoc] using h

theorem isBreak_of_isSeparator {c : Char} (h : isSeparator c = true) : isBreak c = true := by
  simp [isBreak, h]

/-- A scanner that takes as much before a break as it does at the end of a text. -/
structure Halts (scan : List Char → Nat) : Prop where
  same : ∀ (front : List Char) {c : Char} (behind : List Char), isBreak c = true →
    scan (front ++ c :: behind) = scan front
  inside : ∀ front : List Char, scan front ≤ front.length

namespace Halts

variable {first second yes no : List Char → Nat}

theorem runLength {p : Char → Bool} (hp : ∀ c, isBreak c = true → p c = false) :
    Halts (runLength p) where
  same front c behind hc := by
    simp only [Scan.runLength, Blind.takeWhile_hard (hp c hc)]
  inside front := (List.takeWhile_prefix p).length_le

/-- Behind what is taken the break is still there. -/
theorem drop_append (h : Halts first) (front : List Char) {c : Char} (behind : List Char)
    (hc : isBreak c = true) :
    (front ++ c :: behind).drop (first (front ++ c :: behind))
      = front.drop (first front) ++ c :: behind := by
  rw [h.same front behind hc, List.drop_append_of_le_length (h.inside front)]

theorem behind (h : Halts first) (h' : Halts second) :
    Halts fun chars => second (chars.drop (first chars)) where
  same front c behind hc := by
    rw [h.drop_append front behind hc, h'.same _ behind hc]
  inside front := by
    have hsecond := h'.inside (front.drop (first front))
    rw [List.length_drop] at hsecond
    omega

theorem plus (h : Halts first) (h' : Halts second) :
    Halts fun chars => first chars + second (chars.drop (first chars)) where
  same front c behind hc := by
    rw [(h.behind h').same front behind hc, h.same front behind hc]
  inside front := by
    have hfirst := h.inside front
    have hsecond := h'.inside (front.drop (first front))
    rw [List.length_drop] at hsecond
    omega

theorem ite (h : Halts first) (hyes : Halts yes) (hno : Halts no) :
    Halts fun chars => if 0 < first chars then yes chars else no chars where
  same front c behind hc := by
    simp only [h.same front behind hc, hyes.same front behind hc, hno.same front behind hc]
  inside front := by
    split
    · exact hyes.inside front
    · exact hno.inside front

theorem zero : Halts fun _ => 0 where
  same _ _ _ _ := rfl
  inside _ := Nat.zero_le _

end Halts

/-! ## Numbers and words -/

theorem break_isDigit (c : Char) (h : isBreak c = true) : isDigit c = false := by
  rcases isBreak_cases h with rfl | rfl | rfl | rfl <;> decide

theorem break_isHexDigit (c : Char) (h : isBreak c = true) : isHexDigit c = false := by
  rcases isBreak_cases h with rfl | rfl | rfl | rfl <;> decide

theorem break_isNameChar (c : Char) (h : isBreak c = true) : isNameChar c = false := by
  rcases isBreak_cases h with rfl | rfl | rfl | rfl <;> decide

/-- A spelling without a character is told by what comes before it. -/
theorem isPrefixOf_of_not_mem {spelling : List Char} {c : Char} (h : c ∉ spelling)
    (front behind : List Char) :
    spelling.isPrefixOf (front ++ c :: behind) = spelling.isPrefixOf front := by
  induction spelling generalizing front with
  | nil => simp
  | cons first rest ih =>
    cases front with
    | nil =>
      have hne : (first == c) = false := by
        rw [beq_eq_false_iff_ne]
        rintro rfl
        exact h List.mem_cons_self
      simp [List.isPrefixOf, hne]
    | cons head tail =>
      simp only [List.cons_append, List.isPrefixOf, ih (mt (List.mem_cons_of_mem _) h)]

theorem firstSpelling_of_not_mem {spellings : List String} {c : Char}
    (h : ∀ spelling ∈ spellings, c ∉ spelling.toList) (front behind : List Char) :
    firstSpelling spellings (front ++ c :: behind) = firstSpelling spellings front := by
  have hfind : spellings.find? (fun spelling => spelling.toList.isPrefixOf (front ++ c :: behind))
      = spellings.find? (fun spelling => spelling.toList.isPrefixOf front) := by
    induction spellings with
    | nil => rfl
    | cons spelling others ih =>
      rw [List.find?_cons, List.find?_cons, isPrefixOf_of_not_mem (h spelling List.mem_cons_self),
        ih fun other hmem => h other (List.mem_cons_of_mem _ hmem)]
  rw [firstSpelling, firstSpelling, hfind]

theorem firstSpelling_halts {spellings : List String}
    (h : ∀ spelling ∈ spellings, ∀ c ∈ spelling.toList, isBreak c = false) :
    Halts (firstSpelling spellings) where
  same front c behind hc := by
    have hnot : ∀ spelling ∈ spellings, c ∉ spelling.toList := by
      intro spelling hmem hin
      rw [h spelling hmem c hin] at hc
      cases hc
    exact firstSpelling_of_not_mem hnot front behind
  inside front := by
    unfold firstSpelling
    split
    · rename_i spelling hfind
      have hfound : spelling.toList.isPrefixOf front = true := by
        simpa using List.find?_some hfind
      rw [← String.length_toList]
      exact (List.isPrefixOf_iff_prefix.mp hfound).length_le
    · exact Nat.zero_le _

theorem oneOf_halts {letters : List Char} (h : ∀ c ∈ letters, isBreak c = false) :
    Halts (oneOf letters) where
  same front c behind hc := by
    cases front with
    | nil =>
      have hnot : c ∉ letters := by
        intro hmem
        rw [h c hmem] at hc
        cases hc
      simp [oneOf, hnot]
    | cons first rest => rfl
  inside front := by
    cases front with
    | nil => exact Nat.le_refl 0
    | cons first rest =>
      simp only [oneOf, List.length_cons]
      split <;> omega

theorem hexadecimal_halts : Halts hexadecimal := by
  have hdigits := Halts.runLength break_isHexDigit
  constructor
  · intro front c behind hc
    have hzero : c ≠ '0' := by rcases isBreak_cases hc with rfl | rfl | rfl | rfl <;> decide
    have hx : ¬ (c = 'x' ∨ c = 'X') := by rcases isBreak_cases hc with rfl | rfl | rfl | rfl <;> decide
    match front with
    | [] => cases behind <;> simp [hexadecimal, hzero]
    | [first] =>
      by_cases hfirst : first = '0'
      · subst hfirst
        simp [hexadecimal, hx]
      · simp [hexadecimal, hfirst]
    | first :: second :: rest =>
      by_cases hfirst : first = '0'
      · subst hfirst
        simp only [List.cons_append, hexadecimal, hdigits.same rest behind hc]
      · simp [hexadecimal, hfirst]
  · intro front
    match front with
    | [] => exact Nat.le_refl 0
    | [first] => simp [hexadecimal]
    | first :: second :: rest =>
      have hinside := hdigits.inside rest
      by_cases hfirst : first = '0'
      · subst hfirst
        simp only [hexadecimal, List.length_cons]
        split <;> omega
      · simp [hexadecimal, hfirst]

theorem integerLiteral_halts : Halts integerLiteral := by
  have hdigits : Halts fun chars =>
      if 0 < hexadecimal chars then hexadecimal chars else runLength isDigit chars :=
    hexadecimal_halts.ite hexadecimal_halts (.runLength break_isDigit)
  have hsuffix : Halts (firstSpelling ["UL", "LU", "ul", "lu", "U", "u", "L", "l"]) :=
    firstSpelling_halts (by simp [isBreak, isSeparator])
  rw [funext integerLiteral_eq]
  exact hdigits.ite (hdigits.plus hsuffix) .zero

theorem exponent_halts : Halts exponent := by
  have hsign : Halts (oneOf ['+', '-']) := oneOf_halts (by simp [isBreak, isSeparator])
  have hdigits := Halts.runLength break_isDigit
  have hboth := hsign.plus hdigits
  constructor
  · intro front c behind hc
    have hletter : ¬ (c = 'e' ∨ c = 'E') := by
      rcases isBreak_cases hc with rfl | rfl | rfl | rfl <;> decide
    cases front with
    | nil =>
      rw [List.nil_append, exponent_cons, if_neg hletter]
      rfl
    | cons e rest =>
      rw [List.cons_append, exponent_cons, exponent_cons, hsign.drop_append rest behind hc,
        hdigits.same _ behind hc, hsign.same rest behind hc]
  · intro front
    cases front with
    | nil => exact Nat.le_refl 0
    | cons e rest =>
      have hinside := hboth.inside rest
      rw [exponent_cons, List.length_cons]
      split
      · split <;> omega
      · omega

theorem fraction_halts : Halts fraction := by
  have hdigits := Halts.runLength break_isDigit
  constructor
  · intro front c behind hc
    have hpoint : c ≠ '.' := by rcases isBreak_cases hc with rfl | rfl | rfl | rfl <;> decide
    cases front with
    | nil => simp [fraction, hpoint]
    | cons first rest =>
      by_cases hfirst : first = '.'
      · subst hfirst
        simp only [List.cons_append, fraction, hdigits.same rest behind hc]
      · simp [fraction, hfirst]
  · intro front
    cases front with
    | nil => exact Nat.le_refl 0
    | cons first rest =>
      have hinside := hdigits.inside rest
      by_cases hfirst : first = '.'
      · subst hfirst
        simp only [fraction, List.length_cons]
        omega
      · simp [fraction, hfirst]

theorem pointed_halts : Halts pointed := by
  have hwhole := Halts.runLength break_isDigit
  constructor
  · intro front c behind hc
    rw [pointed_eq, pointed_eq, hwhole.drop_append front behind hc, fraction_halts.same _ behind hc,
      hwhole.same front behind hc]
  · intro front
    have hinside := (hwhole.plus fraction_halts).inside front
    rw [pointed_eq]
    split
    · exact Nat.zero_le _
    · exact hinside

theorem floatLiteral_halts : Halts floatLiteral := by
  have hwhole := Halts.runLength break_isDigit
  have hletter : Halts (oneOf ['h', 'H', 'f', 'F', 'l', 'L']) := oneOf_halts (by simp [isBreak, isSeparator])
  have hsuffix : Halts (oneOf ['h', 'H', 'f', 'F']) := oneOf_halts (by simp [isBreak, isSeparator])
  have hpowered : ∀ {number : List Char → Nat}, Halts number →
      Halts (lettered ['h', 'H', 'f', 'F', 'l', 'L'] (powered number)) :=
    fun hnumber => (hnumber.plus exponent_halts).plus hletter
  rw [funext floatLiteral_eq]
  exact pointed_halts.ite (hpowered pointed_halts) <|
    hwhole.ite
      ((hwhole.behind exponent_halts).ite (hpowered hwhole)
        ((hwhole.behind hsuffix).ite (hwhole.plus hsuffix) .zero))
      .zero

theorem word_halts : Halts word :=
  .runLength break_isNameChar

/-! ## Tokens before a separator -/

/-- The kinds of names and numbers. -/
def isAtom (kind : TokenKind) : Bool :=
  kind == .word || kind == .integerLiteral || kind == .floatLiteral

/-- The characters that names and numbers start with. -/
def startsAtom (c : Char) : Bool :=
  isNameChar c || c == '.'

theorem not_blank_of_startsAtom {c : Char} (h : startsAtom c = true) : isBlank c = false := by
  by_contra hblank
  obtain ⟨range, hmem, hlow, hhigh⟩ := inRanges_iff.mp (by simpa [isBlank] using hblank)
  have hle : ∀ {a b : Char}, a ≤ b → a.toNat ≤ b.toNat := fun hle => hle
  have hbounds : 46 ≤ c.toNat ∧ c.toNat ≤ 122 := by
    simp only [startsAtom, isNameChar, isLetter, isDigit, Bool.or_eq_true, Bool.and_eq_true,
      decide_eq_true_eq, beq_iff_eq] at h
    rcases h with (((⟨hlow, hhigh⟩ | ⟨hlow, hhigh⟩) | ⟨hlow, hhigh⟩) | rfl) | rfl
    · exact ⟨Nat.le_trans (by decide) (hle hlow), Nat.le_trans (hle hhigh) (by decide)⟩
    · exact ⟨Nat.le_trans (by decide) (hle hlow), Nat.le_trans (hle hhigh) (by decide)⟩
    · exact ⟨Nat.le_trans (by decide) (hle hlow), Nat.le_trans (hle hhigh) (by decide)⟩
    · decide
    · decide
  have hranges : ∀ range ∈ blankRanges, range.2 < 46 ∨ 122 < range.1 := by decide
  have hrange := hranges range hmem
  omega

/-- A number starts with a digit or a point. -/
theorem number_eq_zero {c : Char} (hdigit : isDigit c = false) (hpoint : c ≠ '.')
    (rest : List Char) : integerLiteral (c :: rest) = 0 ∧ floatLiteral (c :: rest) = 0 := by
  have hdigits : runLength isDigit (c :: rest) = 0 := runLength_eq_zero hdigit rest
  have hzero : c ≠ '0' := by
    rintro rfl
    exact absurd hdigit (by decide)
  have hhex : hexadecimal (c :: rest) = 0 := by cases rest <;> simp [hexadecimal, hzero]
  have hpointed : pointed (c :: rest) = 0 := by simp [pointed, hdigits, hpoint]
  exact ⟨by simp [integerLiteral, hhex, hdigits], by simp [floatLiteral, hpointed, hdigits]⟩

theorem plainToken_kind {c : Char} (h : startsAtom c = false) (rest : List Char) :
    isAtom (plainToken (c :: rest)).1 = false := by
  obtain ⟨hname, hpoint⟩ : isNameChar c = false ∧ c ≠ '.' := by simpa [startsAtom] using h
  have hdigit : isDigit c = false := by
    simp only [isNameChar, Bool.or_eq_false_iff] at hname
    exact hname.1.2
  have hword : word (c :: rest) = 0 := runLength_eq_zero hname rest
  obtain ⟨hwhole, hfloat⟩ := number_eq_zero hdigit hpoint rest
  simp only [plainToken, hword, hwhole, hfloat, Nat.lt_irrefl, false_and, if_false]
  split <;> rfl

/-- What starts like a name or a number is no comment, directive or string. -/
theorem nextToken_eq_plainToken {c : Char} (h : startsAtom c = true) (rest : List Char) :
    nextToken (c :: rest) = plainToken (c :: rest) := by
  have hslash : c ≠ '/' := by rintro rfl; cases h
  have hhash : c ≠ '#' := by rintro rfl; cases h
  have hquote : c ≠ '"' := by rintro rfl; cases h
  have hcomment : comment (c :: rest) = 0 := by simp [comment, hslash]
  have hinclude : includeDirective (c :: rest) = 0 := by
    simp [includeDirective, List.isPrefixOf, Ne.symm hhash]
  have hdirective : directive (c :: rest) = 0 := by simp [directive, hhash]
  have hstring : stringLiteral (c :: rest) = 0 := by simp [stringLiteral, hquote]
  simp [nextToken_eq, hcomment, hinclude, hdirective, hstring]

theorem startsAtom_of_nextToken {chars : List Char} (h : isAtom (nextToken chars).1 = true) :
    ∃ c rest, chars = c :: rest ∧ startsAtom c = true := by
  cases chars with
  | nil => exact absurd h (by decide)
  | cons c rest =>
    refine ⟨c, rest, rfl, ?_⟩
    by_contra hstart
    have hplain := plainToken_kind (Bool.eq_false_iff.mpr hstart) rest
    rw [nextToken_eq] at h
    split_ifs at h
    · cases h
    · cases h
    · cases h
    · cases h
    · rw [hplain] at h
      cases h

/-- A name or a number is the same before a separator as at the end of a text. -/
theorem nextToken_separator {front : List Char} (h : isAtom (nextToken front).1 = true) {c : Char}
    (behind : List Char) (hc : isSeparator c = true) :
    nextToken (front ++ c :: behind) = nextToken front := by
  obtain ⟨first, rest, rfl, hfirst⟩ := startsAtom_of_nextToken h
  rw [nextToken_eq_plainToken hfirst] at h ⊢
  rw [List.cons_append, nextToken_eq_plainToken hfirst]
  have hbreak := isBreak_of_isSeparator hc
  simp only [← List.cons_append, plainToken, word_halts.same _ behind hbreak,
    integerLiteral_halts.same _ behind hbreak, floatLiteral_halts.same _ behind hbreak]
  unfold plainToken at h
  split_ifs at h ⊢ with h1 h2 h3
  · rfl
  · rfl
  · rfl
  all_goals cases h

end Scan

/-! ## Words -/

/-- A text that is cut the same way before a separator as alone, and holds neither white space nor
trivia at its start or between its tokens. -/
structure Separate (word : List Char) : Prop where
  cut : ∀ {c : Char} (behind : List Char), Scan.isSeparator c = true →
    Cut (word ++ c :: behind) (pieces word) (c :: behind)
  solid : ∃ c ∈ word.head?, isBlank c = false
  plain : ∀ piece ∈ pieces word, ∀ kind, piece.kind = some kind → kind.isTrivia = false

/-- A token at the front of a text is a group of its own. -/
theorem Cut.of_nextToken {front behind : List Char} {kind : TokenKind}
    (hsolid : ∃ c ∈ front.head?, isBlank c = false)
    (h : Scan.nextToken (front ++ behind) = (kind, front.length))
    (hkind : kind ≠ .includeDirective) : Cut (front ++ behind) [⟨some kind, front⟩] behind := by
  obtain ⟨c, hc, hblank⟩ := hsolid
  obtain ⟨rest, rfl⟩ := List.head?_eq_some_iff.mp hc
  have hpieces : Scan.nextPieces (c :: rest ++ behind) = [⟨some kind, c :: rest⟩] := by
    rw [Scan.nextPieces_token (by simp [hblank]), h, if_neg hkind, List.take_left]
  have htext : Piece.text [⟨some kind, c :: rest⟩] = c :: rest := by simp
  have hcut : Cut (Piece.text [⟨some kind, c :: rest⟩] ++ behind) [⟨some kind, c :: rest⟩] behind :=
    Cut.single (by simp) (by rw [htext]; exact hpieces)
  rwa [htext] at hcut

/-- A word that is a single token alone and before a separator. -/
theorem separate_of_nextToken {word : List Char} {kind : TokenKind}
    (hsolid : ∃ c ∈ word.head?, isBlank c = false)
    (halone : Scan.nextToken word = (kind, word.length))
    (hbefore : ∀ {c : Char} (behind : List Char), Scan.isSeparator c = true →
      Scan.nextToken (word ++ c :: behind) = (kind, word.length))
    (hkind : kind ≠ .includeDirective) (htrivia : kind.isTrivia = false) :
    pieces word = [⟨some kind, word⟩] ∧ Separate word := by
  have hpieces : pieces word = [⟨some kind, word⟩] := by
    have hcut : Cut (word ++ []) [⟨some kind, word⟩] [] :=
      Cut.of_nextToken hsolid (by rwa [List.append_nil]) hkind
    rw [List.append_nil] at hcut
    exact hcut.pieces_eq
  refine ⟨hpieces, fun behind hc => ?_, hsolid, ?_⟩
  · rw [hpieces]
    exact Cut.of_nextToken hsolid (hbefore behind hc) hkind
  · simpa [hpieces] using htrivia

/-- Names and numbers. -/
theorem separate_atom {word : List Char} {kind : TokenKind}
    (h : Scan.nextToken word = (kind, word.length)) (hkind : Scan.isAtom kind = true) :
    pieces word = [⟨some kind, word⟩] ∧ Separate word := by
  have hatom : Scan.isAtom (Scan.nextToken word).1 = true := by rwa [h]
  obtain ⟨c, rest, hword, hstart⟩ := Scan.startsAtom_of_nextToken hatom
  refine separate_of_nextToken ⟨c, ?_, Scan.not_blank_of_startsAtom hstart⟩ h
    (fun behind hc => (Scan.nextToken_separator hatom behind hc).trans h) ?_ ?_
  · rw [hword]
    rfl
  · rintro rfl
    cases hkind
  · cases kind
    all_goals first | rfl | cases hkind

/-- Operators and delimiters that are single tokens. -/
def marks : List String :=
  ["||", "&&", "|", "^", "&", "==", "!=", "<", "<=", "<<", "+", "-", "*", "/", "%", "=", "*=",
   "/=", "%=", "+=", "-=", "<<=", "&=", "^=", "|=", "++", "--", "!", "~", "?", ":", ".", ",", "(",
   ")", "[", "]"]

theorem nextToken_marks : ∀ mark ∈ marks,
    Scan.nextToken mark.toList = (.punct, mark.toList.length) ∧
    (∀ behind, Scan.nextToken (mark.toList ++ ' ' :: behind) = (.punct, mark.toList.length)) ∧
    (∀ behind, Scan.nextToken (mark.toList ++ ';' :: behind) = (.punct, mark.toList.length)) := by
  unfold marks
  simp only [List.forall_mem_cons]
  refine ⟨?_, ?_, ?_, ?_, ?_, ?_, ?_, ?_, ?_, ?_, ?_, ?_, ?_, ?_, ?_, ?_, ?_, ?_, ?_, ?_, ?_, ?_,
    ?_, ?_, ?_, ?_, ?_, ?_, ?_, ?_, ?_, ?_, ?_, ?_, ?_, ?_, ?_, by simp⟩
  all_goals exact ⟨rfl, fun _ => rfl, fun _ => rfl⟩

theorem separate_mark {mark : String} (h : mark ∈ marks) :
    pieces mark.toList = [⟨some .punct, mark.toList⟩] ∧ Separate mark.toList := by
  obtain ⟨halone, hspace, hsemicolon⟩ := nextToken_marks mark h
  have hsolid : ∀ mark ∈ marks, ∃ c ∈ mark.toList.head?, isBlank c = false := by
    simp [marks]
    decide
  refine separate_of_nextToken (hsolid mark h) halone (fun behind hc => ?_) (by decide) rfl
  rcases Scan.isSeparator_cases hc with rfl | rfl
  · exact hspace behind
  · exact hsemicolon behind

/-- A `>` is a token whatever stands behind it. -/
theorem separate_greater {word : List Char} (h : word = [] ∨ Separate word) :
    pieces ('>' :: word) = ⟨some .punct, ['>']⟩ :: pieces word ∧ Separate ('>' :: word) := by
  have hcut : ∀ {behind rest : List Char} {row : List Piece}, Cut behind row rest →
      Cut ('>' :: behind) (⟨some .punct, ['>']⟩ :: row) rest := by
    intro behind rest row hbehind
    have hgroup := Scan.nextPieces_hard (c := '>') rfl behind
    have hcut : Cut ('>' :: behind) (Scan.nextPieces ('>' :: behind) ++ row) rest :=
      .group (List.cons_ne_nil _ _) (by rw [hgroup]; exact hbehind)
    rw [hgroup] at hcut
    exact hcut
  have hpieces : pieces ('>' :: word) = ⟨some .punct, ['>']⟩ :: pieces word :=
    (hcut (.done word)).pieces_eq
  refine ⟨hpieces, fun behind hc => ?_, ⟨'>', rfl, by decide⟩, ?_⟩
  · rw [hpieces, List.cons_append]
    rcases h with rfl | h
    · exact hcut (.done _)
    · exact hcut (h.cut behind hc)
  · rw [hpieces, List.forall_mem_cons]
    refine ⟨?_, ?_⟩
    · rintro kind ⟨⟩
      rfl
    · rcases h with rfl | h
      · exact fun piece hpiece => absurd hpiece List.not_mem_nil
      · exact h.plain

/-! ## Words in a row -/

/-- Words with a space between any two. -/
def spaced : List String → List Char
  | [] => []
  | [word] => word.toList
  | word :: words => word.toList ++ ' ' :: spaced words

theorem spaced_cons (word : String) {words : List String} (h : words ≠ []) :
    spaced (word :: words) = word.toList ++ ' ' :: spaced words := by
  cases words with
  | nil => exact absurd rfl h
  | cons next words => rfl

/-- Tokens of a text that stand for words in a row: the words stand in the text, and the tokens
are what they are cut into alone. -/
inductive Spelt (chars : List Char) : List String → List Token → Prop
  | nil : Spelt chars [] []
  | cons {before after : List Char} {leads : Bool} {word : String} {words : List String}
      {tokens : List Token} : chars = before ++ (word.toList ++ after) → Spelt chars words tokens →
      Spelt chars (word :: words)
        (place (Location.origin.advance before) leads (pieces word.toList) ++ tokens)

theorem Spelt.append {chars : List Char} {words words' : List String} {tokens : List Token}
    (h : Spelt chars (words ++ words') tokens) :
    ∃ front back, tokens = front ++ back ∧ Spelt chars words front ∧ Spelt chars words' back := by
  induction words generalizing tokens with
  | nil => exact ⟨[], tokens, rfl, .nil, h⟩
  | cons word words ih =>
    cases h with
    | cons hchars hrest =>
      obtain ⟨front, back, rfl, hfront, hback⟩ := ih hrest
      exact ⟨_, back, (List.append_assoc _ _ _).symm, .cons hchars hfront, hback⟩

/-- A space between words is passed over. -/
theorem Spelt.plain {chars : List Char} {words : List String} {tokens : List Token}
    (h : Spelt chars words tokens) (hwords : ∀ word ∈ words, Separate word.toList) :
    ∀ token ∈ tokens, token.kind.isTrivia = false := by
  induction h with
  | nil => exact fun token htoken => absurd htoken List.not_mem_nil
  | @cons before after leads word words tokens hchars hrest ih =>
    rw [List.forall_mem_append]
    refine ⟨fun token htoken => ?_, ih fun other hother => hwords other (List.mem_cons_of_mem _ hother)⟩
    obtain ⟨piece, hpiece, hkind, -⟩ := exists_piece_of_mem_place htoken
    exact (hwords word List.mem_cons_self).plain piece hpiece token.kind hkind

theorem pieces_space {rest : List Char} (h : ∃ c ∈ rest.head?, isBlank c = false) :
    pieces (' ' :: rest) = ⟨none, [' ']⟩ :: pieces rest := by
  obtain ⟨c, hc, hblank⟩ := h
  obtain ⟨others, rfl⟩ := List.head?_eq_some_iff.mp hc
  have hspace : isBlank ' ' = true := by decide
  have hgroup : Scan.nextPieces (' ' :: c :: others) = [⟨none, [' ']⟩] := by
    rw [Scan.nextPieces_blank (by simp [hspace])]
    simp [hspace, hblank]
  rw [pieces_eq (List.cons_ne_nil _ _), hgroup]
  rfl

theorem spaced_solid {word : String} (h : Separate word.toList) (words : List String)
    (behind : List Char) : ∃ c ∈ (spaced (word :: words) ++ behind).head?, isBlank c = false := by
  obtain ⟨c, hc, hblank⟩ := h.solid
  obtain ⟨rest, hrest⟩ := List.head?_eq_some_iff.mp hc
  refine ⟨c, ?_, hblank⟩
  cases words with
  | nil => simp [spaced, hrest]
  | cons next words => simp [spaced, hrest]

/-- The tokens of words in a row before a separator. -/
theorem place_spaced {chars : List Char} {words : List String} (hne : words ≠ [])
    (hwords : ∀ word ∈ words, Separate word.toList) {before after : List Char} {c : Char}
    (hc : Scan.isSeparator c = true) (hchars : chars = before ++ (spaced words ++ c :: after))
    (leads : Bool) :
    ∃ tokens leads', Spelt chars words tokens ∧
      place (Location.origin.advance before) leads (pieces (spaced words ++ c :: after))
        = tokens ++ place (Location.origin.advance (before ++ spaced words)) leads'
          (pieces (c :: after)) := by
  induction words generalizing before leads with
  | nil => exact absurd rfl hne
  | cons word words ih =>
    have hword := hwords word List.mem_cons_self
    cases words with
    | nil =>
      rw [spaced] at hchars ⊢
      refine ⟨place (Location.origin.advance before) leads (pieces word.toList) ++ [],
        leadsAfter leads word.toList, .cons hchars .nil, ?_⟩
      rw [(hword.cut after hc).pieces_eq, place_append, List.append_nil, text_pieces,
        Location.advance_append]
    | cons next words =>
      have hnext := hwords next (by simp)
      have hspaced : spaced (word :: next :: words)
          = word.toList ++ ' ' :: spaced (next :: words) := rfl
      have hbehind : chars = (before ++ word.toList ++ [' ']) ++
          (spaced (next :: words) ++ c :: after) := by
        rw [hchars, hspaced]
        simp
      obtain ⟨tokens, leads', hspelt, hplace⟩ := ih (List.cons_ne_nil _ _)
        (fun other hother => hwords other (List.mem_cons_of_mem _ hother)) hbehind
        (leadsAfter (leadsAfter leads word.toList) [' '])
      have hword' : chars = before ++ (word.toList ++ (' ' :: spaced (next :: words) ++ c :: after)) := by
        rw [hchars, hspaced]
        simp
      refine ⟨place (Location.origin.advance before) leads (pieces word.toList) ++ tokens, leads',
        .cons hword' hspelt, ?_⟩
      have hspace : Scan.isSeparator ' ' = true := by decide
      have hcut := (hword.cut (spaced (next :: words) ++ c :: after) hspace).pieces_eq
      rw [hspaced, List.append_assoc, List.cons_append, hcut,
        pieces_space (spaced_solid hnext words _), place_append, place_cons_none rfl, text_pieces,
        List.append_assoc, ← Location.advance_append, ← Location.advance_append,
        ← List.append_assoc, hplace]
      simp

end Azsl
