/-
Azsl.Proofs.Token.Stable — what follows a closing token does not change the tokens before it.

The scanners look ahead. Those for numbers, words and operators never look past a character such
as `;`, which stands in none of them; those for comments, directives and strings find the end of
what they scan, or they would not have stopped. Hence a stretch of text that ends on a closing
token is cut into the same pieces whatever comes behind it. A quote that opens no string is the
exception: a later quote may close it.
-/
import Azsl.Proofs.Token.Pieces
import Mathlib.Data.List.Induction
import Mathlib.Tactic.ByContra

namespace Azsl

namespace Scan

/-! ## Scanners that stop at a closing token -/

/-- The characters that close a declaration or a path. As tokens they are never joined with what
follows them. -/
def isHard (c : Char) : Bool :=
  c == ';' || c == '\x7d' || c == '>'

theorem isHard_cases {c : Char} (h : isHard c = true) : c = ';' ∨ c = '\x7d' ∨ c = '>' := by
  simpa [isHard, or_assoc] using h

/-- A scanner that neither takes a hard character nor looks past it. -/
structure Blind (scan : List Char → Nat) : Prop where
  same : ∀ (front : List Char) {c : Char} (behind : List Char), isHard c = true →
    scan (front ++ c :: behind) = scan (front ++ [c])
  within : ∀ (front : List Char) {c : Char}, isHard c = true →
    scan (front ++ [c]) ≤ front.length

namespace Blind

theorem takeWhile_hard {p : Char → Bool} {c : Char} (hp : p c = false) (front behind : List Char) :
    (front ++ c :: behind).takeWhile p = front.takeWhile p := by
  induction front with
  | nil => simp [hp]
  | cons first rest ih =>
    rw [List.cons_append, List.takeWhile_cons, List.takeWhile_cons]
    split
    · rw [ih]
    · rfl

theorem runLength {p : Char → Bool} (hp : ∀ c, isHard c = true → p c = false) :
    Blind (runLength p) where
  same front c behind hhard := by
    simp only [Scan.runLength, takeWhile_hard (hp _ hhard)]
  within front c hhard := by
    simp only [Scan.runLength, takeWhile_hard (hp _ hhard)]
    exact (List.takeWhile_prefix p).length_le

/-- Dropping what a blind scanner takes leaves the hard character. -/
theorem drop_append {scan : List Char → Nat} (h : Blind scan) (front : List Char) {c : Char}
    (behind : List Char) (hhard : isHard c = true) :
    (front ++ c :: behind).drop (scan (front ++ c :: behind))
      = front.drop (scan (front ++ [c])) ++ c :: behind := by
  rw [h.same front behind hhard, List.drop_append_of_le_length (h.within front hhard)]

theorem behind {first second : List Char → Nat} (h : Blind first) (h' : Blind second) :
    Blind fun chars => second (chars.drop (first chars)) where
  same front c behind hhard := by
    rw [h.drop_append front behind hhard, h.drop_append front [] hhard, h'.same _ behind hhard]
  within front c hhard := by
    rw [h.drop_append front [] hhard]
    have hsecond := h'.within (front.drop (first (front ++ [c]))) hhard
    rw [List.length_drop] at hsecond
    omega

/-- Nothing is taken of a text that starts with a hard character. -/
theorem eq_zero {scan : List Char → Nat} (h : Blind scan) {c : Char} (hhard : isHard c = true)
    (behind : List Char) : scan (c :: behind) = 0 :=
  Nat.le_zero.mp (h.same [] behind hhard ▸ h.within [] hhard)

theorem plus {first second : List Char → Nat} (h : Blind first) (h' : Blind second) :
    Blind fun chars => first chars + second (chars.drop (first chars)) where
  same front c behind hhard := by
    rw [(h.behind h').same front behind hhard, h.same front behind hhard]
  within front c hhard := by
    rw [h.drop_append front [] hhard]
    have hfirst := h.within front hhard
    have hsecond := h'.within (front.drop (first (front ++ [c]))) hhard
    rw [List.length_drop] at hsecond
    omega

theorem ite {first yes no : List Char → Nat} (h : Blind first) (hyes : Blind yes)
    (hno : Blind no) : Blind fun chars => if 0 < first chars then yes chars else no chars where
  same front c behind hhard := by
    simp only [h.same front behind hhard, hyes.same front behind hhard,
      hno.same front behind hhard]
  within front c hhard := by
    split
    · exact hyes.within front hhard
    · exact hno.within front hhard

theorem zero : Blind fun _ => 0 where
  same _ _ _ _ := rfl
  within _ _ _ := Nat.zero_le _

end Blind

/-! ## Spellings -/

/-- A spelling in which no hard character is followed by another is told by what comes up to the
first hard character. -/
theorem isPrefixOf_hard {spelling : List Char} (hspelling : ∀ c ∈ spelling.dropLast, isHard c = false)
    (front : List Char) {c : Char} (behind : List Char) (hhard : isHard c = true) :
    spelling.isPrefixOf (front ++ c :: behind) = spelling.isPrefixOf (front ++ [c]) := by
  induction spelling generalizing front with
  | nil => rfl
  | cons first rest ih =>
    cases front with
    | nil =>
      cases rest with
      | nil => rfl
      | cons second more =>
        have hfirst := hspelling first (by simp)
        have hne : (first == c) = false := by
          rw [beq_eq_false_iff_ne]
          rintro rfl
          rw [hhard] at hfirst
          cases hfirst
        simp [List.isPrefixOf, hne]
    | cons head tail =>
      have hrest : ∀ c ∈ rest.dropLast, isHard c = false := by
        intro d hd
        cases rest with
        | nil => cases hd
        | cons second more => exact hspelling d (by simpa using .inr hd)
      simp only [List.cons_append, List.isPrefixOf, ih hrest tail]

theorem firstSpelling_same {spellings : List String}
    (h : ∀ spelling ∈ spellings, ∀ c ∈ spelling.toList.dropLast, isHard c = false)
    (front : List Char) {c : Char} (behind : List Char) (hhard : isHard c = true) :
    firstSpelling spellings (front ++ c :: behind) = firstSpelling spellings (front ++ [c]) := by
  have hfind : spellings.find? (fun spelling => spelling.toList.isPrefixOf (front ++ c :: behind))
      = spellings.find? (fun spelling => spelling.toList.isPrefixOf (front ++ [c])) := by
    induction spellings with
    | nil => rfl
    | cons spelling others ih =>
      rw [List.find?_cons, List.find?_cons,
        isPrefixOf_hard (h spelling List.mem_cons_self) front behind hhard,
        ih fun other hmem => h other (List.mem_cons_of_mem _ hmem)]
  rw [firstSpelling, firstSpelling, hfind]

theorem firstSpelling_blind {spellings : List String}
    (h : ∀ spelling ∈ spellings, ∀ c ∈ spelling.toList, isHard c = false) :
    Blind (firstSpelling spellings) where
  same front _ behind hhard :=
    firstSpelling_same (fun spelling hmem c hc => h spelling hmem c (List.dropLast_subset _ hc))
      front behind hhard
  within front c hhard := by
    unfold firstSpelling
    split
    · rename_i spelling hfind
      have hmem := List.mem_of_find?_eq_some hfind
      have hfound : spelling.toList.isPrefixOf (front ++ [c]) = true := by
        simpa using List.find?_some hfind
      have hprefix := List.isPrefixOf_iff_prefix.mp hfound
      rw [List.prefix_concat_iff] at hprefix
      rcases hprefix with heq | hprefix
      · have := h spelling hmem c (by rw [heq]; simp)
        rw [hhard] at this
        cases this
      · rw [← String.length_toList]
        exact hprefix.length_le
    · exact Nat.zero_le _

/-! ## Numbers, words and operators -/

theorem hard_isDigit (c : Char) (h : isHard c = true) : isDigit c = false := by
  rcases isHard_cases h with rfl | rfl | rfl <;> decide

theorem hard_isHexDigit (c : Char) (h : isHard c = true) : isHexDigit c = false := by
  rcases isHard_cases h with rfl | rfl | rfl <;> decide

theorem hard_isNameChar (c : Char) (h : isHard c = true) : isNameChar c = false := by
  rcases isHard_cases h with rfl | rfl | rfl <;> decide

theorem hexadecimal_hard {c : Char} (hhard : isHard c = true) (behind : List Char) :
    hexadecimal (c :: behind) = 0 := by
  have hzero : c ≠ '0' := by rcases isHard_cases hhard with rfl | rfl | rfl <;> decide
  cases behind <;> simp [hexadecimal, hzero]

theorem hexadecimal_cons_hard (first : Char) {c : Char} (hhard : isHard c = true)
    (behind : List Char) : hexadecimal (first :: c :: behind) = 0 := by
  have hx : ¬ (c = 'x' ∨ c = 'X') := by rcases isHard_cases hhard with rfl | rfl | rfl <;> decide
  by_cases hzero : first = '0'
  · subst hzero
    simp [hexadecimal, hx]
  · simp [hexadecimal, hzero]

theorem hexadecimal_blind : Blind hexadecimal := by
  have hdigits := Blind.runLength hard_isHexDigit
  constructor
  · intro front c behind hhard
    match front with
    | [] => rw [List.nil_append, List.nil_append, hexadecimal_hard hhard, hexadecimal_hard hhard]
    | [first] =>
      exact (hexadecimal_cons_hard first hhard _).trans (hexadecimal_cons_hard first hhard _).symm
    | first :: second :: rest =>
      by_cases hzero : first = '0'
      · subst hzero
        simp only [List.cons_append, hexadecimal, hdigits.same rest behind hhard]
      · simp [hexadecimal, hzero]
  · intro front c hhard
    match front with
    | [] => rw [List.nil_append, hexadecimal_hard hhard]; exact Nat.zero_le _
    | [first] => exact (hexadecimal_cons_hard first hhard []).symm ▸ Nat.zero_le _
    | first :: second :: rest =>
      have hwithin := hdigits.within rest hhard
      by_cases hzero : first = '0'
      · subst hzero
        simp only [List.cons_append, hexadecimal, List.length_cons]
        split <;> omega
      · simp [hexadecimal, hzero]

theorem integerLiteral_eq (chars : List Char) :
    integerLiteral chars =
      if 0 < (if 0 < hexadecimal chars then hexadecimal chars else runLength isDigit chars) then
        (if 0 < hexadecimal chars then hexadecimal chars else runLength isDigit chars)
          + firstSpelling ["UL", "LU", "ul", "lu", "U", "u", "L", "l"] (chars.drop
            (if 0 < hexadecimal chars then hexadecimal chars else runLength isDigit chars))
      else 0 := by
  simp only [integerLiteral]
  generalize (if 0 < hexadecimal chars then hexadecimal chars else runLength isDigit chars)
    = digits
  by_cases hzero : digits = 0
  · simp [hzero]
  · rw [if_neg hzero, if_pos (by omega)]

theorem integerLiteral_blind : Blind integerLiteral := by
  have hdigits : Blind fun chars =>
      if 0 < hexadecimal chars then hexadecimal chars else runLength isDigit chars :=
    hexadecimal_blind.ite hexadecimal_blind (.runLength hard_isDigit)
  have hsuffix : Blind (firstSpelling ["UL", "LU", "ul", "lu", "U", "u", "L", "l"]) :=
    firstSpelling_blind (by simp [isHard])
  rw [funext integerLiteral_eq]
  exact hdigits.ite (hdigits.plus hsuffix) .zero

theorem oneOf_blind {letters : List Char} (h : ∀ c ∈ letters, isHard c = false) :
    Blind (oneOf letters) where
  same front c behind hhard := by cases front <;> rfl
  within front c hhard := by
    cases front with
    | nil =>
      have hnot : c ∉ letters := by
        intro hmem
        rw [h c hmem] at hhard
        cases hhard
      simp [oneOf, hnot]
    | cons first rest =>
      simp only [List.cons_append, oneOf, List.length_cons]
      split <;> omega

theorem exponent_cons (e : Char) (rest : List Char) :
    exponent (e :: rest) = if e = 'e' ∨ e = 'E' then
      if runLength isDigit (rest.drop (oneOf ['+', '-'] rest)) = 0 then 0
      else 1 + (oneOf ['+', '-'] rest + runLength isDigit (rest.drop (oneOf ['+', '-'] rest)))
    else 0 := by
  cases rest with
  | nil => simp [exponent, oneOf, runLength]
  | cons s more => simp [exponent, oneOf, Nat.add_assoc]

theorem exponent_blind : Blind exponent := by
  have hsign : Blind (oneOf ['+', '-']) := oneOf_blind (by simp [isHard])
  have hdigits := Blind.runLength hard_isDigit
  have hboth := hsign.plus hdigits
  have hhead : ∀ {c : Char}, isHard c = true → ¬ (c = 'e' ∨ c = 'E') := by
    intro c hhard
    rcases isHard_cases hhard with rfl | rfl | rfl <;> decide
  constructor
  · intro front c behind hhard
    cases front with
    | nil => simp only [List.nil_append, exponent_cons, hhead hhard, if_false]
    | cons e rest =>
      have hsame : runLength isDigit ((rest ++ c :: behind).drop
          (oneOf ['+', '-'] (rest ++ c :: behind)))
          = runLength isDigit ((rest ++ [c]).drop (oneOf ['+', '-'] (rest ++ [c]))) := by
        rw [hsign.drop_append rest behind hhard, hsign.drop_append rest [] hhard,
          hdigits.same _ behind hhard]
      rw [List.cons_append, List.cons_append, exponent_cons, exponent_cons, hsame,
        hsign.same rest behind hhard]
  · intro front c hhard
    cases front with
    | nil => simp [exponent_cons, hhead hhard]
    | cons e rest =>
      have hwithin := hboth.within rest hhard
      simp only [List.cons_append, exponent_cons, List.length_cons]
      split
      · split <;> omega
      · omega

/-- Digits behind a point, with the point. -/
def fraction : List Char → Nat
  | '.' :: rest => 1 + runLength isDigit rest
  | _ => 0

theorem fraction_blind : Blind fraction := by
  have hdigits := Blind.runLength hard_isDigit
  have hhead : ∀ {c : Char}, isHard c = true → c ≠ '.' := by
    intro c hhard
    rcases isHard_cases hhard with rfl | rfl | rfl <;> decide
  constructor
  · intro front c behind hhard
    cases front with
    | nil => simp [fraction, hhead hhard]
    | cons first rest =>
      by_cases hpoint : first = '.'
      · subst hpoint
        simp only [List.cons_append, fraction, hdigits.same rest behind hhard]
      · simp [fraction, hpoint]
  · intro front c hhard
    cases front with
    | nil => simp [fraction, hhead hhard]
    | cons first rest =>
      have hwithin := hdigits.within rest hhard
      by_cases hpoint : first = '.'
      · subst hpoint
        simp only [List.cons_append, fraction, List.length_cons]
        omega
      · simp [fraction, hpoint]

theorem pointed_eq (chars : List Char) :
    pointed chars = if fraction (chars.drop (runLength isDigit chars)) = 0 ∨
        runLength isDigit chars + fraction (chars.drop (runLength isDigit chars)) = 1 then 0
      else runLength isDigit chars + fraction (chars.drop (runLength isDigit chars)) := by
  unfold pointed
  simp only
  generalize runLength isDigit chars = whole
  split
  · rename_i rest hrest
    rw [hrest, fraction]
    generalize runLength isDigit rest = digits
    by_cases hnone : whole = 0 ∧ digits = 0
    · rw [if_pos hnone, if_pos (by omega)]
    · rw [if_neg hnone, if_neg (by omega), Nat.add_assoc]
  · rename_i hrest
    have hnone : fraction (chars.drop whole) = 0 := by
      cases hdrop : chars.drop whole with
      | nil => rfl
      | cons first rest =>
        have hpoint : first ≠ '.' := by
          rintro rfl
          exact hrest rest hdrop
        simp [fraction, hpoint]
    rw [if_pos (.inl hnone)]

theorem pointed_blind : Blind pointed := by
  have hwhole := Blind.runLength hard_isDigit
  have hboth := hwhole.plus fraction_blind
  constructor
  · intro front c behind hhard
    have hsum := hboth.same front behind hhard
    have hfraction : fraction ((front ++ c :: behind).drop (runLength isDigit (front ++ c :: behind)))
        = fraction ((front ++ [c]).drop (runLength isDigit (front ++ [c]))) := by
      rw [hwhole.drop_append front behind hhard, hwhole.drop_append front [] hhard,
        fraction_blind.same _ behind hhard]
    rw [pointed_eq, pointed_eq, hfraction, hwhole.same front behind hhard]
  · intro front c hhard
    have hwithin := hboth.within front hhard
    rw [pointed_eq]
    split
    · exact Nat.zero_le _
    · exact hwithin

/-- What a scanner takes, with one letter more if it is there. -/
def lettered (letters : List Char) (number : List Char → Nat) (chars : List Char) : Nat :=
  number chars + oneOf letters (chars.drop (number chars))

/-- What a scanner takes, with an exponent if it is there. -/
def powered (number : List Char → Nat) (chars : List Char) : Nat :=
  number chars + exponent (chars.drop (number chars))

theorem floatLiteral_eq (chars : List Char) :
    floatLiteral chars =
      if 0 < pointed chars then lettered ['h', 'H', 'f', 'F', 'l', 'L'] (powered pointed) chars
      else if 0 < runLength isDigit chars then
        if 0 < exponent (chars.drop (runLength isDigit chars)) then
          lettered ['h', 'H', 'f', 'F', 'l', 'L'] (powered (runLength isDigit)) chars
        else if 0 < oneOf ['h', 'H', 'f', 'F'] (chars.drop (runLength isDigit chars)) then
          lettered ['h', 'H', 'f', 'F'] (runLength isDigit) chars
        else 0
      else 0 := by
  simp only [floatLiteral, lettered, powered]
  split_ifs <;> first | rfl | omega

theorem floatLiteral_blind : Blind floatLiteral := by
  have hwhole := Blind.runLength hard_isDigit
  have hletter : Blind (oneOf ['h', 'H', 'f', 'F', 'l', 'L']) := oneOf_blind (by simp [isHard])
  have hsuffix : Blind (oneOf ['h', 'H', 'f', 'F']) := oneOf_blind (by simp [isHard])
  have hpowered : ∀ {number : List Char → Nat}, Blind number →
      Blind (lettered ['h', 'H', 'f', 'F', 'l', 'L'] (powered number)) :=
    fun hnumber => (hnumber.plus exponent_blind).plus hletter
  rw [funext floatLiteral_eq]
  exact pointed_blind.ite (hpowered pointed_blind) <|
    hwhole.ite
      ((hwhole.behind exponent_blind).ite (hpowered hwhole)
        ((hwhole.behind hsuffix).ite (hwhole.plus hsuffix) .zero))
      .zero

theorem word_blind : Blind word :=
  .runLength hard_isNameChar

theorem punct_same (front : List Char) {c : Char} (behind : List Char) (hhard : isHard c = true) :
    punct (front ++ c :: behind) = punct (front ++ [c]) :=
  firstSpelling_same (by simp [punctuation, isHard]) front behind hhard

theorem includeDirective_blind : Blind includeDirective := by
  have hname : ∀ c ∈ "#include".toList, isHard c = false := by simp [isHard]
  have hprefix : ∀ (front : List Char) {c : Char}, isHard c = true →
      "#include".toList.isPrefixOf (front ++ [c]) = true → "#include".toList.length ≤ front.length := by
    intro front c hhard hfound
    have hfound := List.isPrefixOf_iff_prefix.mp hfound
    rw [List.prefix_concat_iff] at hfound
    rcases hfound with heq | hfound
    · have := hname c (by rw [heq]; simp)
      rw [hhard] at this
      cases this
    · exact hfound.length_le
  constructor
  · intro front c behind hhard
    unfold includeDirective
    simp only [isPrefixOf_hard (fun c hc => hname c (List.dropLast_subset _ hc)) front behind hhard]
    split
    · rename_i hfound
      have hle := hprefix front hhard hfound
      rw [List.drop_append_of_le_length hle, List.drop_append_of_le_length hle]
      cases front.drop "#include".toList.length <;> rfl
    · rfl
  · intro front c hhard
    unfold includeDirective
    simp only
    split
    · rename_i hfound
      have hle := hprefix front hhard hfound
      split
      · split <;> omega
      · exact hle
    · exact Nat.zero_le _

/-! ## Comments, directives and strings -/

/-- A scanner that stops before a hard character, if it does, whatever stands behind that. -/
def Firm (scan : List Char → Nat) : Prop :=
  ∀ (front : List Char) {c : Char} (behind behind' : List Char), isHard c = true →
    scan (front ++ c :: behind) ≤ front.length →
    scan (front ++ c :: behind') = scan (front ++ c :: behind)

theorem Blind.firm {scan : List Char → Nat} (h : Blind scan) : Firm scan := by
  intro front c behind behind' hhard _
  rw [h.same front behind' hhard, h.same front behind hhard]

theorem lineCommentBody_cons {c : Char} (h : c ≠ '\\') (rest : List Char) :
    lineCommentBody (c :: rest) = if c = '\n' then 0 else 1 + lineCommentBody rest := by
  cases rest <;> simp [lineCommentBody, h]

theorem lineCommentBody_firm : Firm lineCommentBody := by
  intro front c behind behind' hhard
  have hslash : c ≠ '\\' := by rcases isHard_cases hhard with rfl | rfl | rfl <;> decide
  have hline : c ≠ '\n' := by rcases isHard_cases hhard with rfl | rfl | rfl <;> decide
  -- A backslash takes the character behind it along, so the steps are of one or two characters.
  induction front using List.twoStepInduction with
  | nil =>
    intro hle
    rw [List.nil_append, lineCommentBody_cons hslash, if_neg hline, List.length_nil] at hle
    omega
  | singleton first =>
    intro hle
    simp only [List.singleton_append, List.length_singleton] at hle ⊢
    by_cases hfirst : first = '\\'
    · subst hfirst
      rw [lineCommentBody] at hle
      omega
    · rw [lineCommentBody_cons hfirst, lineCommentBody_cons hslash, if_neg hline] at hle
      rw [lineCommentBody_cons hfirst, lineCommentBody_cons hfirst]
      split
      · rfl
      · rename_i hfeed
        rw [if_neg hfeed] at hle
        omega
  | cons_cons first second rest ih ih' =>
    intro hle
    by_cases hfirst : first = '\\'
    · subst hfirst
      simp only [List.cons_append, lineCommentBody, List.length_cons] at hle ⊢
      rw [ih (by omega)]
    · have hnext := ih' second
      simp only [List.cons_append, lineCommentBody_cons hfirst, List.length_cons] at hle hnext ⊢
      split
      · rfl
      · rename_i hfeed
        rw [if_neg hfeed] at hle
        rw [hnext (by omega)]

theorem blockCommentBody_cons {c : Char} (h : c ≠ '*') (rest : List Char) :
    blockCommentBody (c :: rest) = 1 + blockCommentBody rest := by
  cases rest <;> simp [blockCommentBody, h]

theorem blockCommentBody_star {c : Char} (h : c ≠ '/') (rest : List Char) :
    blockCommentBody ('*' :: c :: rest) = 1 + blockCommentBody (c :: rest) := by
  simp [blockCommentBody, h]

theorem blockCommentBody_firm : Firm blockCommentBody := by
  intro front c behind behind' hhard
  have hstar : c ≠ '*' := by rcases isHard_cases hhard with rfl | rfl | rfl <;> decide
  have hslash : c ≠ '/' := by rcases isHard_cases hhard with rfl | rfl | rfl <;> decide
  induction front using List.twoStepInduction with
  | nil =>
    intro hle
    rw [List.nil_append, blockCommentBody_cons hstar, List.length_nil] at hle
    omega
  | singleton first =>
    intro hle
    simp only [List.singleton_append, List.length_singleton] at hle
    have heq : blockCommentBody (first :: c :: behind)
        = 1 + (1 + blockCommentBody behind) := by
      by_cases hfirst : first = '*'
      · rw [hfirst, blockCommentBody_star hslash, blockCommentBody_cons hstar]
      · rw [blockCommentBody_cons hfirst, blockCommentBody_cons hstar]
    omega
  | cons_cons first second rest _ ih =>
    intro hle
    have hnext := ih second
    simp only [List.cons_append, List.length_cons] at hle hnext ⊢
    by_cases hfirst : first = '*'
    · subst hfirst
      by_cases hsecond : second = '/'
      · rw [hsecond, blockCommentBody, blockCommentBody]
      · rw [blockCommentBody_star hsecond] at hle ⊢
        rw [blockCommentBody_star hsecond, hnext (by omega)]
    · rw [blockCommentBody_cons hfirst] at hle ⊢
      rw [blockCommentBody_cons hfirst, hnext (by omega)]

theorem comment_firm : Firm comment := by
  intro front c behind behind' hhard hle
  have hslash : c ≠ '/' := by rcases isHard_cases hhard with rfl | rfl | rfl <;> decide
  have hstar : c ≠ '*' := by rcases isHard_cases hhard with rfl | rfl | rfl <;> decide
  match front with
  | [] => simp [comment, hslash]
  | [first] => simp [comment, hslash, hstar]
  | first :: second :: rest =>
    by_cases hfirst : first = '/'
    · subst hfirst
      by_cases hline : second = '/'
      · subst hline
        simp only [List.cons_append, comment, List.length_cons] at hle ⊢
        rw [lineCommentBody_firm rest behind behind' hhard (by omega)]
      · by_cases hblock : second = '*'
        · subst hblock
          simp only [List.cons_append, comment, List.length_cons] at hle ⊢
          rw [blockCommentBody_firm rest behind behind' hhard (by omega)]
        · simp [comment, hline, hblock]
    · simp [comment, hfirst]

/-- The end of a line behind a backslash. -/
def lineEnd : List Char → Nat
  | '\n' :: _ => 1
  | '\r' :: '\n' :: _ => 2
  | _ => 0

theorem lineEnd_eq_zero {c : Char} (hfeed : c ≠ '\n') (hreturn : c ≠ '\r') (rest : List Char) :
    lineEnd (c :: rest) = 0 := by
  cases rest <;> simp [lineEnd, hfeed, hreturn]

theorem lineEnd_cons_cons (first second : Char) (rest : List Char) :
    lineEnd (first :: second :: rest)
      = if first = '\n' then 1 else if first = '\r' ∧ second = '\n' then 2 else 0 := by
  by_cases hfeed : first = '\n'
  · simp [lineEnd, hfeed]
  · by_cases hreturn : first = '\r' <;> by_cases hsecond : second = '\n' <;>
      simp [lineEnd, hfeed, hreturn, hsecond]

theorem lineEnd_blind : Blind lineEnd := by
  have hfeed : ∀ {c : Char}, isHard c = true → c ≠ '\n' := by
    intro c hhard
    rcases isHard_cases hhard with rfl | rfl | rfl <;> decide
  have hreturn : ∀ {c : Char}, isHard c = true → c ≠ '\r' := by
    intro c hhard
    rcases isHard_cases hhard with rfl | rfl | rfl <;> decide
  constructor
  · intro front c behind hhard
    match front with
    | [] =>
      rw [List.nil_append, List.nil_append, lineEnd_eq_zero (hfeed hhard) (hreturn hhard),
        lineEnd_eq_zero (hfeed hhard) (hreturn hhard)]
    | [first] => simp only [List.singleton_append, lineEnd_cons_cons]
    | first :: second :: rest => simp only [List.cons_append, lineEnd_cons_cons]
  · intro front c hhard
    match front with
    | [] => rw [List.nil_append, lineEnd_eq_zero (hfeed hhard) (hreturn hhard)]; exact Nat.zero_le _
    | [first] =>
      simp only [List.singleton_append, lineEnd_cons_cons, hfeed hhard, and_false, if_false,
        List.length_singleton]
      split <;> omega
    | first :: second :: rest =>
      simp only [List.cons_append, List.length_cons, lineEnd_cons_cons]
      split_ifs <;> omega

theorem directiveBody_slash (rest : List Char) :
    directiveBody ('\\' :: rest)
      = 1 + lineEnd rest + directiveBody (rest.drop (lineEnd rest)) := by
  match rest with
  | [] => rfl
  | first :: rest =>
    by_cases hfeed : first = '\n'
    · subst hfeed
      simp [directiveBody, lineEnd]
    · by_cases hreturn : first = '\r'
      · subst hreturn
        match rest with
        | [] => simp [directiveBody, lineEnd]
        | second :: rest =>
          by_cases hsecond : second = '\n'
          · subst hsecond
            simp [directiveBody, lineEnd]
          · simp [directiveBody, lineEnd, hsecond]
      · rw [lineEnd_eq_zero hfeed hreturn]
        simp [directiveBody, hfeed, hreturn]

theorem directiveBody_cons {c : Char} (h : c ≠ '\\') (rest : List Char) :
    directiveBody (c :: rest) = if c = '\r' ∨ c = '\n' then 0 else 1 + directiveBody rest := by
  simp [directiveBody, h]

theorem directiveBody_firm : Firm directiveBody := by
  intro front c behind behind' hhard
  have hslash : c ≠ '\\' := by rcases isHard_cases hhard with rfl | rfl | rfl <;> decide
  have hend : ¬ (c = '\r' ∨ c = '\n') := by rcases isHard_cases hhard with rfl | rfl | rfl <;> decide
  induction hlength : front.length using Nat.strongRecOn generalizing front with
  | ind length ih =>
    subst hlength
    intro hle
    match front with
    | [] =>
      rw [List.nil_append, directiveBody_cons hslash, if_neg hend, List.length_nil] at hle
      omega
    | first :: rest =>
      simp only [List.cons_append, List.length_cons] at hle ⊢
      by_cases hfirst : first = '\\'
      · subst hfirst
        have hwithin := lineEnd_blind.within rest hhard
        rw [directiveBody_slash, lineEnd_blind.drop_append rest behind hhard,
          lineEnd_blind.same rest behind hhard] at hle
        rw [directiveBody_slash, directiveBody_slash, lineEnd_blind.drop_append rest behind hhard,
          lineEnd_blind.drop_append rest behind' hhard, lineEnd_blind.same rest behind hhard,
          lineEnd_blind.same rest behind' hhard, ih _ _ _ rfl]
        · rw [List.length_drop]
          omega
        · rw [List.length_drop, List.length_cons]
          omega
      · rw [directiveBody_cons hfirst] at hle
        rw [directiveBody_cons hfirst, directiveBody_cons hfirst]
        split
        · rfl
        · rename_i hgoes
          rw [if_neg hgoes] at hle
          rw [ih _ (Nat.lt_succ_self _) rest rfl (by omega)]

theorem directive_firm : Firm directive := by
  intro front c behind behind' hhard hle
  have hhash : c ≠ '#' := by rcases isHard_cases hhard with rfl | rfl | rfl <;> decide
  match front with
  | [] => simp [directive, hhash]
  | first :: rest =>
    by_cases hfirst : first = '#'
    · subst hfirst
      simp only [List.cons_append, directive, List.length_cons] at hle ⊢
      rw [directiveBody_firm rest behind behind' hhard (by omega)]
    · simp [directive, hfirst]

theorem stringBody?_cons {c : Char} (hquote : c ≠ '"') (hslash : c ≠ '\\') (rest : List Char) :
    stringBody? (c :: rest) = if c = '\n' then none else (stringBody? rest).map (1 + ·) := by
  cases rest with
  | nil => simp [stringBody?, hslash]
  | cons d rest => simp [stringBody?, hslash]

/-- A string that is closed before a hard character stays closed there. -/
theorem stringBody?_firm (front : List Char) {c : Char} (behind behind' : List Char)
    (hhard : isHard c = true) {length : Nat}
    (h : stringBody? (front ++ c :: behind) = some length) (hle : length ≤ front.length) :
    stringBody? (front ++ c :: behind') = some length := by
  have hquote : c ≠ '"' := by rcases isHard_cases hhard with rfl | rfl | rfl <;> decide
  have hslash : c ≠ '\\' := by rcases isHard_cases hhard with rfl | rfl | rfl <;> decide
  have hline : c ≠ '\n' := by rcases isHard_cases hhard with rfl | rfl | rfl <;> decide
  induction front using List.twoStepInduction generalizing length with
  | nil =>
    rw [List.nil_append, stringBody?_cons hquote hslash, if_neg hline] at h
    obtain ⟨inner, -, rfl⟩ := Option.map_eq_some_iff.mp h
    rw [List.length_nil] at hle
    omega
  | singleton first =>
    simp only [List.singleton_append, List.length_singleton] at h hle ⊢
    by_cases hfirst : first = '"'
    · subst hfirst
      simpa [stringBody?] using h
    · by_cases hescape : first = '\\'
      · subst hescape
        rw [stringBody?] at h
        split at h
        · obtain ⟨inner, -, rfl⟩ := Option.map_eq_some_iff.mp h
          omega
        · cases h
      · rw [stringBody?_cons hfirst hescape, stringBody?_cons hquote hslash, if_neg hline] at h
        split at h
        · cases h
        · obtain ⟨inner, hinner, rfl⟩ := Option.map_eq_some_iff.mp h
          obtain ⟨more, -, rfl⟩ := Option.map_eq_some_iff.mp hinner
          omega
  | cons_cons first second rest ih ih' =>
    simp only [List.cons_append, List.length_cons] at h hle ⊢
    by_cases hfirst : first = '"'
    · subst hfirst
      simpa [stringBody?] using h
    · by_cases hescape : first = '\\'
      · subst hescape
        simp only [stringBody?] at h ⊢
        split at h
        · rename_i hknown
          obtain ⟨inner, hinner, rfl⟩ := Option.map_eq_some_iff.mp h
          rw [if_pos hknown, ih hinner (by omega), Option.map_some]
        · cases h
      · rw [stringBody?_cons hfirst hescape] at h ⊢
        split at h
        · cases h
        · rename_i hfeed
          obtain ⟨inner, hinner, rfl⟩ := Option.map_eq_some_iff.mp h
          have hnext := ih' second hinner (by rw [List.length_cons]; omega)
          rw [List.cons_append] at hnext
          rw [if_neg hfeed, hnext, Option.map_some]

theorem stringLiteral_eq_zero {chars : List Char} (h : chars.head? ≠ some '"') :
    stringLiteral chars = 0 := by
  cases chars with
  | nil => rfl
  | cons c rest =>
    have hquote : c ≠ '"' := by simpa using h
    simp [stringLiteral, hquote]

theorem stringLiteral_firm (front : List Char) {c : Char} (behind behind' : List Char)
    (hhard : isHard c = true) (hpos : 0 < stringLiteral (front ++ c :: behind))
    (hle : stringLiteral (front ++ c :: behind) ≤ front.length) :
    stringLiteral (front ++ c :: behind') = stringLiteral (front ++ c :: behind) := by
  have hhead : (front ++ c :: behind).head? = some '"' := by
    by_contra hhead
    rw [stringLiteral_eq_zero hhead] at hpos
    omega
  cases front with
  | nil =>
    have hquote : c ≠ '"' := by rcases isHard_cases hhard with rfl | rfl | rfl <;> decide
    exact absurd (Option.some.inj hhead) hquote
  | cons first rest =>
    obtain rfl : first = '"' := Option.some.inj hhead
    simp only [List.cons_append, stringLiteral, List.length_cons] at hpos hle ⊢
    cases hbody : stringBody? (rest ++ c :: behind) with
    | none => simp [hbody] at hpos
    | some length =>
      simp only [hbody, Option.map_some, Option.getD_some] at hle ⊢
      rw [stringBody?_firm rest behind behind' hhard hbody (by omega)]
      rfl

/-! ## The rules in order -/

theorem runLength_eq_zero {p : Char → Bool} {c : Char} (h : p c = false) (rest : List Char) :
    runLength p (c :: rest) = 0 := by
  simp [runLength, h]

theorem punct_quote (rest : List Char) : punct ('"' :: rest) = 0 := by
  have hnone : punctuation.find? (fun spelling => spelling.toList.isPrefixOf ('"' :: rest))
      = none := by
    rw [List.find?_eq_none]
    intro spelling hmem hfound
    obtain ⟨behind, hbehind⟩ := List.isPrefixOf_iff_prefix.mp hfound
    have hhead : ∀ spelling ∈ punctuation, ∃ c ∈ spelling.toList.head?, c ≠ '"' := by
      simp [punctuation]
    obtain ⟨c, hc, hne⟩ := hhead spelling hmem
    obtain ⟨more, hmore⟩ := List.head?_eq_some_iff.mp hc
    rw [hmore, List.cons_append] at hbehind
    exact hne (List.cons.inj hbehind).1
  rw [punct, firstSpelling, hnone]

/-- A quote that opens no string is a token of its own. -/
theorem nextToken_stray {rest : List Char} (h : stringLiteral ('"' :: rest) = 0) :
    nextToken ('"' :: rest) = (.unknown, 1) := by
  have hhex : hexadecimal ('"' :: rest) = 0 := by cases rest <;> simp [hexadecimal]
  have hdigits : runLength isDigit ('"' :: rest) = 0 := runLength_eq_zero rfl rest
  have hpointed : pointed ('"' :: rest) = 0 := by simp [pointed, hdigits]
  have hwhole : integerLiteral ('"' :: rest) = 0 := by simp [integerLiteral, hhex, hdigits]
  have hfloat : floatLiteral ('"' :: rest) = 0 := by simp [floatLiteral, hpointed, hdigits]
  have hword : word ('"' :: rest) = 0 := runLength_eq_zero rfl rest
  simp [nextToken, comment, includeDirective, directive, h, hwhole, hfloat, hword, punct_quote]

/-- A hard character is a token of its own. -/
theorem nextToken_hard {c : Char} (hhard : isHard c = true) (rest : List Char) :
    nextToken (c :: rest) = (.punct, 1) := by
  have hcomment : comment (c :: rest) = 0 := by
    have hslash : c ≠ '/' := by rcases isHard_cases hhard with rfl | rfl | rfl <;> decide
    simp [comment, hslash]
  have hdirective : directive (c :: rest) = 0 := by
    have hhash : c ≠ '#' := by rcases isHard_cases hhard with rfl | rfl | rfl <;> decide
    simp [directive, hhash]
  have hstring : stringLiteral (c :: rest) = 0 := by
    refine stringLiteral_eq_zero ?_
    rcases isHard_cases hhard with rfl | rfl | rfl <;> simp
  have hpunct : punct (c :: rest) = 1 := by
    refine (punct_same [] rest hhard).trans ?_
    rcases isHard_cases hhard with rfl | rfl | rfl <;> decide
  simp [nextToken, hcomment, hdirective, hstring, hpunct, includeDirective_blind.eq_zero hhard,
    integerLiteral_blind.eq_zero hhard, floatLiteral_blind.eq_zero hhard,
    word_blind.eq_zero hhard]

/-- The token at the front of a text that starts with no comment, directive or string. -/
def plainToken (chars : List Char) : TokenKind × Nat :=
  if 0 < word chars ∧ integerLiteral chars < word chars ∧ floatLiteral chars < word chars then
    (.word, word chars)
  else if 0 < floatLiteral chars ∧ integerLiteral chars < floatLiteral chars then
    (.floatLiteral, floatLiteral chars)
  else if 0 < integerLiteral chars then (.integerLiteral, integerLiteral chars)
  else if 0 < punct chars then (.punct, punct chars)
  else (.unknown, 1)

theorem nextToken_eq (chars : List Char) :
    nextToken chars =
      if 0 < comment chars then (.comment, comment chars)
      else if 0 < includeDirective chars then (.includeDirective, includeDirective chars)
      else if 0 < directive chars then (.directive, directive chars)
      else if 0 < stringLiteral chars then (.stringLiteral, stringLiteral chars)
      else plainToken chars := rfl

theorem plainToken_same (front : List Char) {c : Char} (behind : List Char)
    (hhard : isHard c = true) : plainToken (front ++ c :: behind) = plainToken (front ++ [c]) := by
  simp only [plainToken, punct_same front behind hhard, integerLiteral_blind.same front behind hhard,
    floatLiteral_blind.same front behind hhard, word_blind.same front behind hhard]

/-- A token that ends before a hard character ends there whatever stands behind that. Only a
quote that opens no string may be closed by what comes later. -/
theorem nextToken_firm (front : List Char) {c : Char} (behind behind' : List Char)
    (hhard : isHard c = true) (hle : (nextToken (front ++ c :: behind)).2 ≤ front.length)
    (hstray : nextToken (front ++ c :: behind) = (.unknown, 1) →
      (front ++ c :: behind).head? ≠ some '"') :
    nextToken (front ++ c :: behind') = nextToken (front ++ c :: behind) := by
  have hcomment := comment_firm front behind behind' hhard
  have hinclude := includeDirective_blind.firm front behind behind' hhard
  have hdirective := directive_firm front behind behind' hhard
  have hstring := stringLiteral_firm front behind behind' hhard
  have hhead : stringLiteral (front ++ c :: behind) = 0 →
      (front ++ c :: behind).head? ≠ some '"' := by
    intro hzero hquote
    obtain ⟨rest, hrest⟩ := List.head?_eq_some_iff.mp hquote
    rw [hrest] at hzero hstray
    exact hstray (nextToken_stray hzero) rfl
  rw [nextToken_eq] at hle
  rw [nextToken_eq, nextToken_eq (front ++ c :: behind)]
  split_ifs at hle with h1 h2 h3 h4
  · rw [hcomment hle, if_pos h1, if_pos h1]
  · rw [hcomment (by omega), hinclude hle, if_neg h1, if_neg h1, if_pos h2, if_pos h2]
  · rw [hcomment (by omega), hinclude (by omega), hdirective hle, if_neg h1, if_neg h1,
      if_neg h2, if_neg h2, if_pos h3, if_pos h3]
  · rw [hcomment (by omega), hinclude (by omega), hdirective (by omega), hstring h4 hle,
      if_neg h1, if_neg h1, if_neg h2, if_neg h2, if_neg h3, if_neg h3, if_pos h4, if_pos h4]
  · have hzero : stringLiteral (front ++ c :: behind') = 0 := by
      have hne := hhead (by omega)
      refine stringLiteral_eq_zero ?_
      cases front with
      | nil => exact hne
      | cons first rest => exact hne
    rw [hcomment (by omega), hinclude (by omega), hdirective (by omega), hzero,
      plainToken_same front behind hhard, plainToken_same front behind' hhard, if_neg h1,
      if_neg h1, if_neg h2, if_neg h2, if_neg h3, if_neg h3, if_neg h4]
    rfl

end Scan

end Azsl
