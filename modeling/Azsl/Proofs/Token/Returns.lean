/-
Azsl.Proofs.Token.Returns — tokens of a text whose lines end in carriage returns.

With a carriage return in front of every line feed a text has the same tokens, spelled the same
but for the carriage returns, with one exception: a line comment that a backslash continues on
the next line. The backslash takes only the carriage return along, so the comment ends there
(`tokenize_returned_iff`). Everything else sees the end of a line one character earlier and does
the same with it. A line comment that is not continued takes the carriage return, and what is
left begins with a bare line feed.
-/
import Azsl.Proofs.Token.Spaced

namespace Azsl

/-! ## Carriage returns -/

/-- A text with a carriage return in front of every line feed. -/
def returned (chars : List Char) : List Char :=
  chars.flatMap fun c => if c = '\n' then ['\r', '\n'] else [c]

/-- A text without its carriage returns. -/
def bare (chars : List Char) : List Char :=
  chars.filter (· ≠ '\r')

@[simp] theorem returned_nil : returned [] = [] := rfl

@[simp] theorem returned_feed (rest : List Char) :
    returned ('\n' :: rest) = '\r' :: '\n' :: returned rest := rfl

theorem returned_cons {c : Char} (h : c ≠ '\n') (rest : List Char) :
    returned (c :: rest) = c :: returned rest := by
  simp [returned, h]

theorem returned_eq_nil_iff {chars : List Char} : returned chars = [] ↔ chars = [] := by
  cases chars with
  | nil => simp
  | cons c rest =>
    by_cases hfeed : c = '\n'
    · simp [hfeed]
    · simp [returned_cons hfeed]

theorem returned_append (left right : List Char) :
    returned (left ++ right) = returned left ++ returned right := by
  simp [returned]

theorem returned_of_not_mem {chars : List Char} (h : '\n' ∉ chars) : returned chars = chars := by
  induction chars with
  | nil => rfl
  | cons c rest ih =>
    obtain ⟨hc, hrest⟩ := not_or.mp (mt List.mem_cons.mpr h)
    rw [returned_cons (Ne.symm hc), ih hrest]

theorem bare_of_not_mem {chars : List Char} (h : '\r' ∉ chars) : bare chars = chars := by
  refine List.filter_eq_self.mpr fun c hc => ?_
  have hne : c ≠ '\r' := by
    rintro rfl
    exact h hc
  simpa using hne

theorem bare_returned {chars : List Char} (h : '\r' ∉ chars) : bare (returned chars) = chars := by
  induction chars with
  | nil => rfl
  | cons c rest ih =>
    obtain ⟨hc, hrest⟩ := not_or.mp (mt List.mem_cons.mpr h)
    by_cases hfeed : c = '\n'
    · subst hfeed
      rw [returned_feed]
      exact congrArg ('\n' :: ·) (ih hrest)
    · rw [returned_cons hfeed, bare, List.filter_cons_of_pos (by simpa using Ne.symm hc)]
      exact congrArg (c :: ·) (ih hrest)

theorem head?_returned_eq_some {c : Char} (hfeed : c ≠ '\n') (hreturn : c ≠ '\r')
    {chars : List Char} : (returned chars).head? = some c ↔ chars.head? = some c := by
  cases chars with
  | nil => simp
  | cons first rest =>
    by_cases hfirst : first = '\n'
    · simp [hfirst, hfeed.symm, hreturn.symm]
    · simp [returned_cons hfirst]

theorem returned_split (chars : List Char) (n : Nat) :
    returned (chars.take n) ++ returned (chars.drop n) = returned chars := by
  rw [← returned_append, List.take_append_drop]

theorem take_returned (chars : List Char) (n : Nat) :
    (returned chars).take (returned (chars.take n)).length = returned (chars.take n) := by
  rw [← returned_split chars n, List.take_left]

theorem drop_returned (chars : List Char) (n : Nat) :
    (returned chars).drop (returned (chars.take n)).length = returned (chars.drop n) := by
  rw [← returned_split chars n, List.drop_left]

/-- A text is a line, or goes on with a line feed behind one. -/
theorem exists_line (chars : List Char) :
    '\n' ∉ chars ∨ ∃ line rest, chars = line ++ '\n' :: rest ∧ '\n' ∉ line := by
  by_cases h : '\n' ∈ chars
  · obtain ⟨line, rest, heq, hline⟩ := List.eq_append_cons_of_mem h
    exact .inr ⟨line, rest, heq, hline⟩
  · exact .inl h

namespace Scan

/-! ## Scanners that take no line feed -/

/-- A scanner that takes as much before the end of a line as it does at the end of a text. -/
structure Lined (scan : List Char → Nat) : Prop where
  same : ∀ (line : List Char) {c : Char} (behind : List Char), c = '\n' ∨ c = '\r' →
    scan (line ++ c :: behind) = scan line
  inside : ∀ line : List Char, scan line ≤ line.length

/-- What a scanner takes of a returned text is what it takes of the text, returned. -/
def Keeps (scan : List Char → Nat) (chars : List Char) : Prop :=
  scan (returned chars) = (returned (chars.take (scan chars))).length

variable {scan : List Char → Nat} {chars : List Char}

theorem Keeps.pos_iff (h : Keeps scan chars) (hne : chars ≠ []) :
    0 < scan (returned chars) ↔ 0 < scan chars := by
  rw [h, List.length_pos_iff, ne_eq, returned_eq_nil_iff, List.take_eq_nil_iff]
  simp [hne, Nat.pos_iff_ne_zero]

namespace Lined

theorem returned_eq (h : Lined scan) (chars : List Char) : scan (returned chars) = scan chars := by
  rcases exists_line chars with hline | ⟨line, rest, rfl, hline⟩
  · rw [returned_of_not_mem hline]
  · rw [returned_append, returned_of_not_mem hline, returned_feed, h.same line _ (.inr rfl),
      h.same line _ (.inl rfl)]

/-- The end of a line is not taken. -/
theorem keeps (h : Lined scan) (chars : List Char) : Keeps scan chars := by
  rw [Keeps, h.returned_eq]
  rcases exists_line chars with hline | ⟨line, rest, rfl, hline⟩
  · have hinside := h.inside chars
    rw [returned_of_not_mem (mt (List.mem_of_mem_take) hline), List.length_take]
    omega
  · have hinside := h.inside line
    rw [h.same line rest (.inl rfl), List.take_append_of_le_length hinside,
      returned_of_not_mem (mt (List.mem_of_mem_take) hline), List.length_take]
    omega

end Lined

theorem Halts.lined (h : Halts scan) : Lined scan where
  same line c behind hc := h.same line behind (by rcases hc with rfl | rfl <;> decide)
  inside := h.inside

theorem punct_lined : Lined punct where
  same line c behind hc := by
    refine firstSpelling_of_not_mem ?_ line behind
    rcases hc with rfl | rfl <;> simp [punctuation]
  inside line := by
    unfold punct firstSpelling
    split
    · rename_i spelling hfind
      have hfound : spelling.toList.isPrefixOf line = true := by
        simpa using List.find?_some hfind
      rw [← String.length_toList]
      exact (List.isPrefixOf_iff_prefix.mp hfound).length_le
    · exact Nat.zero_le _

theorem includeDirective_lined : Lined includeDirective where
  same line c behind hc := by
    have hnot : c ∉ "#include".toList := by rcases hc with rfl | rfl <;> decide
    have hword : isWordChar c = false := by rcases hc with rfl | rfl <;> decide +kernel
    unfold includeDirective
    simp only [isPrefixOf_of_not_mem hnot]
    split
    · rename_i hfound
      have hle := (List.isPrefixOf_iff_prefix.mp hfound).length_le
      rw [List.drop_append_of_le_length hle]
      cases line.drop "#include".toList.length with
      | nil => simp [hword]
      | cons first rest => rfl
    · rfl
  inside line := by
    unfold includeDirective
    simp only
    split
    · rename_i hfound
      have hle := (List.isPrefixOf_iff_prefix.mp hfound).length_le
      split
      · split
        · exact Nat.zero_le _
        · exact hle
      · exact hle
    · exact Nat.zero_le _

/-! ## Comments, directives and strings -/

/-- One more character in front of what a scanner takes. -/
theorem length_returned_take_cons {c : Char} (rest : List Char) (n : Nat) :
    (returned ((c :: rest).take (1 + n))).length
      = (returned [c]).length + (returned (rest.take n)).length := by
  rw [Nat.add_comm 1 n, List.take_succ_cons, ← List.singleton_append, returned_append,
    List.length_append]

theorem blockCommentBody_cons_open {c : Char} {rest : List Char}
    (h : ¬ (c = '*' ∧ rest.head? = some '/')) :
    blockCommentBody (c :: rest) = 1 + blockCommentBody rest := by
  by_cases hstar : c = '*'
  · subst hstar
    cases rest with
    | nil => rfl
    | cons second more =>
      have hslash : second ≠ '/' := by
        rintro rfl
        exact h ⟨rfl, rfl⟩
      exact blockCommentBody_star hslash more
  · exact blockCommentBody_cons hstar rest

theorem blockCommentBody_keeps (chars : List Char) : Keeps blockCommentBody chars := by
  unfold Keeps
  induction chars with
  | nil => rfl
  | cons c rest ih =>
    by_cases hclose : c = '*' ∧ rest.head? = some '/'
    · obtain ⟨rfl, hhead⟩ := hclose
      obtain ⟨more, rfl⟩ := List.head?_eq_some_iff.mp hhead
      rfl
    · rw [blockCommentBody_cons_open hclose, length_returned_take_cons, ← ih]
      by_cases hfeed : c = '\n'
      · subst hfeed
        rw [returned_feed, blockCommentBody_cons (by decide), blockCommentBody_cons (by decide)]
        simp only [returned_feed, returned_nil, List.length_cons, List.length_nil]
        omega
      · have hopen : ¬ (c = '*' ∧ (returned rest).head? = some '/') := by
          rwa [head?_returned_eq_some (by decide) (by decide)]
        rw [returned_cons hfeed, blockCommentBody_cons_open hopen, returned_cons hfeed]
        rfl

theorem directiveBody_cons_open {c : Char} {rest : List Char} (hfeed : c ≠ '\n')
    (hreturn : c ≠ '\r')
    (h : ¬ (c = '\\' ∧ (rest.head? = some '\n' ∨ rest.head? = some '\r'))) :
    directiveBody (c :: rest) = 1 + directiveBody rest := by
  by_cases hslash : c = '\\'
  · subst hslash
    have hnone : lineEnd rest = 0 := by
      cases rest with
      | nil => rfl
      | cons second more =>
        refine lineEnd_eq_zero ?_ ?_ more
        · rintro rfl
          exact h ⟨rfl, .inl rfl⟩
        · rintro rfl
          exact h ⟨rfl, .inr rfl⟩
    rw [directiveBody_slash, hnone]
    rfl
  · rw [directiveBody_cons hslash, if_neg (by simp [hfeed, hreturn])]

/-- Behind a backslash the end of a line is taken as a whole. -/
theorem directiveBody_keeps {chars : List Char} (h : '\r' ∉ chars) : Keeps directiveBody chars := by
  unfold Keeps
  induction chars using List.twoStepInduction with
  | nil => rfl
  | singleton c =>
    have hreturn : c ≠ '\r' := by simpa [eq_comm] using h
    by_cases hfeed : c = '\n'
    · subst hfeed
      rfl
    · rw [returned_cons hfeed, returned_nil, directiveBody_cons_open hfeed hreturn (by simp),
        length_returned_take_cons, returned_cons hfeed]
      rfl
  | cons_cons first second rest ih ih' =>
    have hreturn : first ≠ '\r' := fun heq => h (by simp [heq])
    have hreturn' : second ≠ '\r' := fun heq => h (by simp [heq])
    have hrest : '\r' ∉ second :: rest := fun hmem => h (List.mem_cons_of_mem _ hmem)
    by_cases hfeed : first = '\n'
    · subst hfeed
      rw [returned_feed, directiveBody_cons (by decide), directiveBody_cons (by decide)]
      rfl
    · by_cases hcontinued : first = '\\' ∧ second = '\n'
      · obtain ⟨rfl, rfl⟩ := hcontinued
        have hbehind := ih fun hmem => hrest (List.mem_cons_of_mem _ hmem)
        rw [returned_cons hfeed, returned_feed, directiveBody, directiveBody, hbehind,
          show 2 + directiveBody rest = 1 + (1 + directiveBody rest) by omega,
          length_returned_take_cons, length_returned_take_cons, returned_cons hfeed, returned_feed]
        simp only [returned_nil, List.length_cons, List.length_nil]
        omega
      · have hopen : ¬ (first = '\\' ∧ ((second :: rest).head? = some '\n' ∨
            (second :: rest).head? = some '\r')) := by
          rintro ⟨rfl, hhead | hhead⟩
          · exact hcontinued ⟨rfl, Option.some.inj hhead⟩
          · exact hreturn' (Option.some.inj hhead)
        have hopen' : ¬ (first = '\\' ∧ ((returned (second :: rest)).head? = some '\n' ∨
            (returned (second :: rest)).head? = some '\r')) := by
          rintro ⟨rfl, hhead⟩
          have hfeed' : second ≠ '\n' := fun heq => hcontinued ⟨rfl, heq⟩
          rw [returned_cons hfeed'] at hhead
          rcases hhead with hhead | hhead
          · exact hfeed' (Option.some.inj hhead)
          · exact hreturn' (Option.some.inj hhead)
        rw [returned_cons hfeed, directiveBody_cons_open hfeed hreturn hopen',
          directiveBody_cons_open hfeed hreturn hopen, length_returned_take_cons, ih' second hrest,
          returned_cons hfeed]
        rfl

theorem stringBody?_feed (rest : List Char) :
    stringBody? ('\n' :: rest) = none ∧ stringBody? ('\r' :: '\n' :: rest) = none := by
  have hfeed : stringBody? ('\n' :: rest) = none := by
    rw [stringBody?_cons (by decide) (by decide), if_pos rfl]
  refine ⟨hfeed, ?_⟩
  rw [stringBody?_cons (by decide) (by decide), if_neg (by decide), hfeed]
  rfl

/-- A string is not closed behind the end of a line. -/
theorem stringBody?_returned {chars : List Char} (h : '\r' ∉ chars) :
    stringBody? (returned chars) = stringBody? chars ∧
      ∀ length ∈ stringBody? chars, length ≤ chars.length ∧ '\n' ∉ chars.take length := by
  induction chars using List.twoStepInduction with
  | nil => simp [stringBody?]
  | singleton c =>
    by_cases hfeed : c = '\n'
    · subst hfeed
      obtain ⟨hnone, hnone'⟩ := stringBody?_feed []
      rw [returned_feed, returned_nil, hnone, hnone']
      simp
    · rw [returned_cons hfeed, returned_nil]
      refine ⟨rfl, fun length hlength => ?_⟩
      by_cases hquote : c = '"'
      · subst hquote
        obtain rfl : 1 = length := by simpa [stringBody?] using hlength
        simp
      · by_cases hslash : c = '\\'
        · simp [hslash, stringBody?] at hlength
        · simp [stringBody?_cons hquote hslash, stringBody?, hfeed] at hlength
  | cons_cons first second rest ih ih' =>
    have hrest : '\r' ∉ second :: rest := fun hmem => h (List.mem_cons_of_mem _ hmem)
    by_cases hfeed : first = '\n'
    · subst hfeed
      obtain ⟨-, hnone⟩ := stringBody?_feed (returned (second :: rest))
      rw [returned_feed, hnone, (stringBody?_feed _).1]
      simp
    · rw [returned_cons hfeed]
      by_cases hquote : first = '"'
      · subst hquote
        simp [stringBody?]
      · by_cases hslash : first = '\\'
        · subst hslash
          by_cases hfeed' : second = '\n'
          · subst hfeed'
            have hreturn : isEscapable '\r' = false := by decide
            have hescape : isEscapable '\n' = false := by decide
            simp [stringBody?, hreturn, hescape]
          · obtain ⟨hsame, hinside⟩ := ih fun hmem => hrest (List.mem_cons_of_mem _ hmem)
            rw [returned_cons hfeed', stringBody?, stringBody?, hsame]
            refine ⟨rfl, fun length hlength => ?_⟩
            split at hlength
            · obtain ⟨more, hmore, rfl⟩ := Option.map_eq_some_iff.mp hlength
              obtain ⟨hle, hnot⟩ := hinside more hmore
              rw [Nat.add_comm 2 more]
              simp [hnot, Ne.symm hfeed', hle]
            · cases hlength
        · obtain ⟨hsame, hinside⟩ := ih' second hrest
          rw [stringBody?_cons hquote hslash, stringBody?_cons hquote hslash, hsame]
          refine ⟨rfl, fun length hlength => ?_⟩
          rw [if_neg hfeed] at hlength
          obtain ⟨more, hmore, rfl⟩ := Option.map_eq_some_iff.mp hlength
          obtain ⟨hle, hnot⟩ := hinside more hmore
          rw [Nat.add_comm 1 more, List.take_succ_cons, List.length_cons]
          exact ⟨Nat.succ_le_succ hle, by simp [hnot, Ne.symm hfeed]⟩

theorem stringLiteral_keeps {chars : List Char} (h : '\r' ∉ chars) : Keeps stringLiteral chars := by
  by_cases hquote : chars.head? = some '"'
  · obtain ⟨rest, rfl⟩ := List.head?_eq_some_iff.mp hquote
    obtain ⟨hsame, hinside⟩ := stringBody?_returned fun hmem => h (List.mem_cons_of_mem _ hmem)
    rw [Keeps, returned_cons (by decide), stringLiteral, stringLiteral, hsame]
    cases hbody : stringBody? rest with
    | none => rfl
    | some length =>
      obtain ⟨hle, hnot⟩ := hinside length hbody
      rw [Option.map_some, Option.getD_some, length_returned_take_cons, returned_of_not_mem hnot,
        List.length_take, Nat.min_eq_left hle]
      rfl
  · have hquote' : (returned chars).head? ≠ some '"' := by
      rwa [ne_eq, head?_returned_eq_some (by decide) (by decide)]
    rw [Keeps, stringLiteral_eq_zero hquote, stringLiteral_eq_zero hquote']
    rfl

theorem directive_keeps {chars : List Char} (h : '\r' ∉ chars) : Keeps directive chars := by
  have hzero : ∀ {chars : List Char}, chars.head? ≠ some '#' → directive chars = 0 := by
    intro chars hhash
    cases chars with
    | nil => rfl
    | cons c rest =>
      have hne : c ≠ '#' := by simpa using hhash
      simp [directive, hne]
  by_cases hhash : chars.head? = some '#'
  · obtain ⟨rest, rfl⟩ := List.head?_eq_some_iff.mp hhash
    have hbody : Keeps directiveBody rest :=
      directiveBody_keeps fun hmem => h (List.mem_cons_of_mem _ hmem)
    rw [Keeps, returned_cons (by decide), directive, directive, length_returned_take_cons, hbody]
    rfl
  · have hhash' : (returned chars).head? ≠ some '#' := by
      rwa [ne_eq, head?_returned_eq_some (by decide) (by decide)]
    rw [Keeps, hzero hhash, hzero hhash']
    rfl

theorem comment_eq_zero {chars : List Char} (hline : ∀ body, chars ≠ '/' :: '/' :: body)
    (hblock : ∀ body, chars ≠ '/' :: '*' :: body) : comment chars = 0 := by
  unfold comment
  split
  · exact absurd rfl (hline _)
  · exact absurd rfl (hblock _)
  · rfl

/-- A returned text starts with two characters that end no line if the text does. -/
theorem exists_of_returned_eq {first second : Char} (hfirst : first ≠ '\n' ∧ first ≠ '\r')
    (hsecond : second ≠ '\n' ∧ second ≠ '\r') {chars body : List Char}
    (h : returned chars = first :: second :: body) : ∃ rest, chars = first :: second :: rest := by
  have hhead : (returned chars).head? = some first := by rw [h]; rfl
  rw [head?_returned_eq_some hfirst.1 hfirst.2] at hhead
  obtain ⟨behind, rfl⟩ := List.head?_eq_some_iff.mp hhead
  rw [returned_cons hfirst.1] at h
  have hnext : (returned behind).head? = some second := by rw [(List.cons.inj h).2]; rfl
  rw [head?_returned_eq_some hsecond.1 hsecond.2] at hnext
  obtain ⟨rest, rfl⟩ := List.head?_eq_some_iff.mp hnext
  exact ⟨rest, rfl⟩

/-- A block comment, and what is no comment. -/
theorem comment_keeps {chars : List Char} (hline : ∀ body, chars ≠ '/' :: '/' :: body) :
    Keeps comment chars := by
  by_cases hblock : ∃ body, chars = '/' :: '*' :: body
  · obtain ⟨body, rfl⟩ := hblock
    have hbody := blockCommentBody_keeps body
    rw [Keeps, returned_cons (by decide), returned_cons (by decide), comment, comment,
      show 2 + blockCommentBody body = 1 + (1 + blockCommentBody body) by omega,
      length_returned_take_cons, length_returned_take_cons, hbody]
    simp only [returned_cons (show '/' ≠ '\n' by decide), returned_cons (show '*' ≠ '\n' by decide),
      returned_nil, List.length_cons, List.length_nil]
    omega
  · have hblock := not_exists.mp hblock
    have hzero : comment (returned chars) = 0 := by
      refine comment_eq_zero (fun body heq => ?_) (fun body heq => ?_)
      · obtain ⟨rest, hrest⟩ := exists_of_returned_eq (by decide) (by decide) heq
        exact hline rest hrest
      · obtain ⟨rest, hrest⟩ := exists_of_returned_eq (by decide) (by decide) heq
        exact hblock rest hrest
    rw [Keeps, hzero, comment_eq_zero hline hblock]
    rfl

/-- What a text starts with if that is no comment, directive or string. -/
theorem plainToken_returned {c : Char} {rest : List Char} (hfeed : c ≠ '\n') :
    (plainToken (returned (c :: rest))).1 = (plainToken (c :: rest)).1 ∧
      (plainToken (returned (c :: rest))).2
        = (returned ((c :: rest).take (plainToken (c :: rest)).2)).length := by
  have hword := word_halts.lined
  have hwhole := integerLiteral_halts.lined
  have hfloat := floatLiteral_halts.lined
  have hsame : plainToken (returned (c :: rest)) = plainToken (c :: rest) := by
    simp only [plainToken, hword.returned_eq, hwhole.returned_eq, hfloat.returned_eq,
      punct_lined.returned_eq]
  refine ⟨congrArg Prod.fst hsame, ?_⟩
  rw [hsame]
  unfold plainToken
  split_ifs
  · exact (hword.returned_eq _).symm.trans (hword.keeps _)
  · exact (hfloat.returned_eq _).symm.trans (hfloat.keeps _)
  · exact (hwhole.returned_eq _).symm.trans (hwhole.keeps _)
  · exact (punct_lined.returned_eq _).symm.trans (punct_lined.keeps _)
  · simp [returned_cons hfeed]

/-- The token at the front of a returned text, unless it is a line comment. -/
theorem nextToken_returned {c : Char} {rest : List Char} (hfeed : c ≠ '\n')
    (hreturn : '\r' ∉ c :: rest) (hline : ∀ body, c :: rest ≠ '/' :: '/' :: body) :
    (nextToken (returned (c :: rest))).1 = (nextToken (c :: rest)).1 ∧
      (nextToken (returned (c :: rest))).2
        = (returned ((c :: rest).take (nextToken (c :: rest)).2)).length := by
  have hne : c :: rest ≠ [] := List.cons_ne_nil c rest
  have hcomment := comment_keeps hline
  have hinclude := includeDirective_lined.keeps (c :: rest)
  have hdirective := directive_keeps hreturn
  have hstring := stringLiteral_keeps hreturn
  simp only [nextToken_eq, hcomment.pos_iff hne, hinclude.pos_iff hne, hdirective.pos_iff hne,
    hstring.pos_iff hne]
  split_ifs
  · exact ⟨rfl, hcomment⟩
  · exact ⟨rfl, hinclude⟩
  · exact ⟨rfl, hdirective⟩
  · exact ⟨rfl, hstring⟩
  · exact plainToken_returned hfeed

/-! ## Line comments -/

/-- What is left of a returned text: all of it, or what is behind the first carriage return. -/
def Returned (chars other : List Char) : Prop :=
  other = returned chars ∨ ∃ rest, chars = '\n' :: rest ∧ other = '\n' :: returned rest

/-- The front of a text ends on its line, and that of another one is the same but for a carriage
return. -/
structure Alike (chars : List Char) (length : Nat) (other : List Char) (length' : Nat) : Prop where
  line : '\n' ∉ chars.take length
  same : bare (other.take length') = chars.take length
  rest : Returned (chars.drop length) (other.drop length')

/-- The front of a text goes on behind its line, and that of another one is not the same. -/
structure Unlike (chars : List Char) (length : Nat) (other : List Char) (length' : Nat) : Prop where
  line : '\n' ∈ chars.take length
  differs : bare (other.take length') ≠ chars.take length

variable {other : List Char} {length length' : Nat}

theorem bare_cons {c : Char} (h : c ≠ '\r') (rest : List Char) : bare (c :: rest) = c :: bare rest :=
  List.filter_cons_of_pos (by simpa using h)

theorem Alike.cons (h : Alike chars length other length') {c : Char} (hfeed : c ≠ '\n')
    (hreturn : c ≠ '\r') : Alike (c :: chars) (1 + length) (c :: other) (1 + length') := by
  rw [Nat.add_comm 1, Nat.add_comm 1]
  refine ⟨?_, ?_, h.rest⟩
  · rw [List.take_succ_cons, List.mem_cons, not_or]
    exact ⟨hfeed.symm, h.line⟩
  · rw [List.take_succ_cons, List.take_succ_cons, bare_cons hreturn, h.same]

theorem Unlike.cons (h : Unlike chars length other length') {c : Char} (hreturn : c ≠ '\r') :
    Unlike (c :: chars) (1 + length) (c :: other) (1 + length') := by
  rw [Nat.add_comm 1, Nat.add_comm 1]
  refine ⟨?_, ?_⟩
  · rw [List.take_succ_cons]
    exact List.mem_cons_of_mem _ h.line
  · rw [List.take_succ_cons, List.take_succ_cons, bare_cons hreturn]
    exact fun heq => h.differs (List.cons.inj heq).2

/-- A line comment is the same unless it goes on behind its line. -/
theorem lineCommentBody_returned {chars : List Char} (h : '\r' ∉ chars) :
    Alike chars (lineCommentBody chars) (returned chars) (lineCommentBody (returned chars)) ∨
      Unlike chars (lineCommentBody chars) (returned chars) (lineCommentBody (returned chars)) := by
  induction chars using lineCommentBody.induct with
  | case1 => exact .inl ⟨List.not_mem_nil, rfl, .inl rfl⟩
  | case2 => exact .inl ⟨List.not_mem_nil, rfl, .inl rfl⟩
  | case3 c rest ih =>
    have hrest : '\r' ∉ rest := fun hmem => h (by simp [hmem])
    have hreturn : c ≠ '\r' := fun heq => h (by simp [heq])
    by_cases hfeed : c = '\n'
    · -- the backslash takes the carriage return, and the line feed ends the comment
      subst hfeed
      right
      rw [returned_cons (by decide), returned_feed, lineCommentBody, lineCommentBody,
        lineCommentBody_cons (by decide), if_pos rfl, Nat.add_comm 2, Nat.add_comm 2]
      refine ⟨by simp, ?_⟩
      simp [bare]
    · rw [returned_cons (by decide), returned_cons hfeed, lineCommentBody, lineCommentBody,
        show 2 + lineCommentBody rest = 1 + (1 + lineCommentBody rest) by omega,
        show 2 + lineCommentBody (returned rest) = 1 + (1 + lineCommentBody (returned rest)) by omega]
      exact (ih hrest).imp (fun h => (h.cons hfeed hreturn).cons (by decide) (by decide))
        fun h => (h.cons hreturn).cons (by decide)
  | case4 rest _ _ =>
    left
    rw [returned_feed, lineCommentBody_cons (by decide), if_pos rfl,
      lineCommentBody_cons (by decide), if_neg (by decide), lineCommentBody_cons (by decide),
      if_pos rfl]
    exact ⟨List.not_mem_nil, rfl, .inr ⟨rest, rfl, rfl⟩⟩
  | case5 c rest hlast hmore hfeed ih =>
    have hslash : c ≠ '\\' := by
      intro heq
      cases rest with
      | nil => exact hlast heq rfl
      | cons next more => exact hmore next more heq rfl
    have hreturn : c ≠ '\r' := fun heq => h (by simp [heq])
    rw [returned_cons hfeed, lineCommentBody_cons hslash, if_neg hfeed, lineCommentBody_cons hslash,
      if_neg hfeed]
    exact (ih fun hmem => h (List.mem_cons_of_mem _ hmem)).imp (·.cons hfeed hreturn)
      (·.cons hreturn)

/-! ## Groups -/

theorem takeWhile_returned {p : Char → Bool} (hp : p '\r' = p '\n') (chars : List Char) :
    (returned chars).takeWhile p = returned (chars.takeWhile p) := by
  induction chars with
  | nil => rfl
  | cons c rest ih =>
    by_cases hfeed : c = '\n'
    · subst hfeed
      cases hpass : p '\n' with
      | false => simp [hp, hpass]
      | true => simp [hp, hpass, ih]
    · rw [returned_cons hfeed]
      cases hpass : p c with
      | false => simp [hpass]
      | true => simp [hpass, ih, returned_cons hfeed]

theorem drop_takeWhile_returned {p : Char → Bool} (hp : p '\r' = p '\n') (chars : List Char) :
    (returned chars).drop ((returned chars).takeWhile p).length
      = returned (chars.drop (chars.takeWhile p).length) := by
  have htake := List.prefix_iff_eq_take.mp (List.takeWhile_prefix p (l := chars))
  rw [takeWhile_returned hp, htake, drop_returned, ← htake]

theorem takeWhile_line {p : Char → Bool} (hp : p '\n' = false) (chars : List Char) :
    '\n' ∉ chars.takeWhile p := by
  intro hmem
  rw [List.mem_takeWhile_imp hmem] at hp
  cases hp

theorem text_pathPieces_line (chars : List Char) : '\n' ∉ Piece.text (pathPieces chars) := by
  cases chars with
  | nil => exact List.not_mem_nil
  | cons opening inner =>
    simp only [pathPieces]
    cases hclosing : closing? opening with
    | none => exact List.not_mem_nil
    | some closing =>
      have hpath := takeWhile_line (p := isPathChar) (by decide) inner
      have hends : opening ≠ '\n' ∧ closing ≠ '\n' := by
        rcases closing?_eq_some hclosing with ⟨rfl, rfl⟩ | ⟨rfl, rfl⟩ <;> decide
      simp only [Piece.text_append, Piece.text_cons, Piece.text_nil]
      split
      · simp [hpath, hends.1.symm, hends.2.symm]
      · simp [hpath, hends.1.symm]

/-- Behind some characters of a line the rest is returned. -/
theorem drop_returned_line {front chars : List Char} (hfront : front <+: chars)
    (hline : '\n' ∉ front) : (returned chars).drop front.length
      = returned (chars.drop front.length) := by
  obtain ⟨behind, rfl⟩ := hfront
  rw [returned_append, returned_of_not_mem hline, List.drop_left, List.drop_left]

theorem pathPieces_returned (chars : List Char) :
    pathPieces (returned chars) = pathPieces chars := by
  cases chars with
  | nil => rfl
  | cons opening inner =>
    by_cases hfeed : opening = '\n'
    · subst hfeed
      rfl
    · rw [returned_cons hfeed]
      simp only [pathPieces]
      cases hclosing : closing? opening with
      | none => rfl
      | some closing =>
        have hpath := takeWhile_line (p := isPathChar) (by decide) inner
        have hends : closing ≠ '\n' ∧ closing ≠ '\r' := by
          rcases closing?_eq_some hclosing with ⟨-, rfl⟩ | ⟨-, rfl⟩ <;> decide
        have hsame : (returned inner).takeWhile isPathChar = inner.takeWhile isPathChar := by
          rw [takeWhile_returned (by decide), returned_of_not_mem hpath]
        simp only [hsame, drop_returned_line (List.takeWhile_prefix isPathChar) hpath,
          head?_returned_eq_some hends.1 hends.2]

/-- What follows an include directive stays on its line. -/
theorem includeTail_returned (chars : List Char) :
    includeTail (returned chars) = includeTail chars ∧ '\n' ∉ Piece.text (includeTail chars) := by
  have hgap := takeWhile_line (p := isGapChar) (by decide) chars
  have hsame : (returned chars).takeWhile isGapChar = chars.takeWhile isGapChar := by
    rw [takeWhile_returned (by decide), returned_of_not_mem hgap]
  constructor
  · rw [includeTail_eq, includeTail_eq, hsame,
      drop_returned_line (List.takeWhile_prefix isGapChar) hgap, pathPieces_returned]
  · rw [includeTail_eq, Piece.text_append, text_gap, List.mem_append, not_or]
    exact ⟨hgap, text_pathPieces_line _⟩

end Scan

/-! ## Spelling -/

/-- A line comment that goes on behind its line. -/
def Continues (kind : TokenKind) (chars : List Char) : Prop :=
  kind = .comment ∧ ∃ body, chars = '/' :: '/' :: body ∧ '\n' ∈ body

/-- The kinds and texts of the tokens among some pieces, without carriage returns. -/
def Piece.spelling (row : List Piece) : List (TokenKind × List Char) :=
  row.filterMap fun piece => piece.kind.map fun kind => (kind, bare piece.chars)

/-- The kind and the text of a token, without carriage returns. -/
def Token.spelling (token : Token) : TokenKind × List Char :=
  (token.kind, bare token.text.toList)

/-- A token that is a line comment and goes on behind its line. -/
def Token.Continued (token : Token) : Prop :=
  Continues token.kind token.text.toList

/-- No line comment among some pieces goes on behind its line. -/
def Piece.NoneContinued (row : List Piece) : Prop :=
  ∀ piece ∈ row, ∀ kind ∈ piece.kind, ¬ Continues kind piece.chars

theorem Piece.spelling_append (left right : List Piece) :
    spelling (left ++ right) = spelling left ++ spelling right :=
  List.filterMap_append ..

theorem Piece.noneContinued_append (left right : List Piece) :
    NoneContinued (left ++ right) ↔ NoneContinued left ∧ NoneContinued right :=
  List.forall_mem_append

theorem place_spelling (here : Location) (leads : Bool) (row : List Piece) :
    (place here leads row).map Token.spelling = Piece.spelling row := by
  induction row generalizing here leads with
  | nil => rfl
  | cons piece rest ih =>
    cases hkind : piece.kind with
    | none =>
      rw [place_cons_none hkind, ih, Piece.spelling, Piece.spelling, List.filterMap_cons, hkind]
      rfl
    | some kind =>
      rw [place_cons_some hkind, List.map_cons, ih, Piece.spelling, Piece.spelling,
        List.filterMap_cons, hkind, Token.spelling, String.toList_ofList]
      rfl

theorem place_noneContinued (here : Location) (leads : Bool) (row : List Piece) :
    (∀ token ∈ place here leads row, ¬ token.Continued) ↔ Piece.NoneContinued row := by
  induction row generalizing here leads with
  | nil => simp [place, Piece.NoneContinued]
  | cons piece rest ih =>
    rw [Piece.NoneContinued, List.forall_mem_cons, ← Piece.NoneContinued]
    cases hkind : piece.kind with
    | none =>
      rw [place_cons_none hkind, ih]
      simp
    | some kind =>
      rw [place_cons_some hkind, List.forall_mem_cons, ih, Token.Continued, String.toList_ofList]
      simp

/-! ## Groups alike -/

/-- The groups at the front of two texts have the same tokens, none of them a comment that goes on
behind its line, and what is left is returned. -/
structure GroupsAlike (chars other : List Char) : Prop where
  spelling : Piece.spelling (Scan.nextPieces other) = Piece.spelling (Scan.nextPieces chars)
  ended : Piece.NoneContinued (Scan.nextPieces chars)
  rest : Scan.Returned (chars.drop (Piece.total (Scan.nextPieces chars)))
    (other.drop (Piece.total (Scan.nextPieces other)))

/-- The groups at the front of two texts are comments, one of which goes on behind its line and is
not the same as the other one. -/
structure GroupsUnlike (chars other : List Char) : Prop where
  continued : ¬ Piece.NoneContinued (Scan.nextPieces chars)
  differs : ∃ text text', Scan.nextPieces chars = [⟨some .comment, text⟩] ∧
    Scan.nextPieces other = [⟨some .comment, text'⟩] ∧ bare text' ≠ bare text

section

variable {chars other : List Char}

theorem groups_of_blank (hreturned : Scan.Returned chars other)
    (hblank : chars.takeWhile isBlank ≠ []) : GroupsAlike chars other := by
  have hsame : isBlank '\r' = isBlank '\n' := by decide
  obtain ⟨hblank', hrest⟩ : other.takeWhile isBlank ≠ [] ∧
      other.drop (other.takeWhile isBlank).length
        = returned (chars.drop (chars.takeWhile isBlank).length) := by
    rcases hreturned with rfl | ⟨rest, rfl, rfl⟩
    · refine ⟨?_, Scan.drop_takeWhile_returned hsame chars⟩
      rwa [Scan.takeWhile_returned hsame, ne_eq, returned_eq_nil_iff]
    · have hfeed : isBlank '\n' = true := by decide
      simp only [List.takeWhile_cons, hfeed, if_true, List.length_cons, List.drop_succ_cons]
      exact ⟨List.cons_ne_nil _ _, Scan.drop_takeWhile_returned hsame rest⟩
  have htotal : ∀ blanks, Piece.total [⟨none, blanks⟩] = blanks.length := fun _ => rfl
  constructor
  · rw [Scan.nextPieces_blank hblank, Scan.nextPieces_blank hblank']
    rfl
  · rw [Scan.nextPieces_blank hblank]
    simp [Piece.NoneContinued]
  · rw [Scan.nextPieces_blank hblank, Scan.nextPieces_blank hblank', htotal, htotal]
    exact .inl hrest

theorem nextToken_lineComment (body : List Char) :
    Scan.nextToken ('/' :: '/' :: body) = (.comment, 2 + Scan.lineCommentBody body) := by
  have hcomment : Scan.comment ('/' :: '/' :: body) = 2 + Scan.lineCommentBody body := rfl
  rw [Scan.nextToken_eq, hcomment, if_pos (by omega)]

theorem drop_length_take (chars : List Char) (n : Nat) :
    chars.drop (chars.take n).length = chars.drop n := by
  have hsplit : (chars.take n ++ chars.drop n).drop (chars.take n).length = chars.drop n :=
    List.drop_left
  rwa [List.take_append_drop] at hsplit

theorem groups_of_lineComment {body : List Char} (h : '\r' ∉ body) :
    GroupsAlike ('/' :: '/' :: body) (returned ('/' :: '/' :: body)) ∨
      GroupsUnlike ('/' :: '/' :: body) (returned ('/' :: '/' :: body)) := by
  have hgroup : ∀ body, Scan.nextPieces ('/' :: '/' :: body)
      = [⟨some .comment, '/' :: '/' :: body.take (Scan.lineCommentBody body)⟩] := by
    intro body
    rw [Scan.nextPieces_token (by simp [show isBlank '/' = false by decide]),
      nextToken_lineComment, if_neg TokenKind.noConfusion, Nat.add_comm 2]
    rfl
  have hsame := hgroup body
  have hreturned := hgroup (returned body)
  rw [returned_cons (by decide), returned_cons (by decide)]
  have hbare : bare (body.take (Scan.lineCommentBody body)) = body.take (Scan.lineCommentBody body) :=
    bare_of_not_mem (mt List.mem_of_mem_take h)
  rcases Scan.lineCommentBody_returned h with halike | hunlike
  · left
    constructor
    · rw [hsame, hreturned, Piece.spelling, Piece.spelling, List.filterMap_cons, List.filterMap_cons]
      simp only [Option.map_some, Scan.bare_cons (show '/' ≠ '\r' by decide), halike.same, hbare]
    · rw [hsame, Piece.NoneContinued, List.forall_mem_singleton]
      rintro kind - ⟨-, line, hline, hmem⟩
      rw [← (List.cons.inj (List.cons.inj hline).2).2] at hmem
      exact halike.line hmem
    · rw [hsame, hreturned]
      simp only [Piece.total, List.length_cons, Nat.add_zero, List.drop_succ_cons,
        drop_length_take]
      exact halike.rest
  · right
    refine ⟨fun hended => ?_, _, _, hsame, hreturned, fun heq => hunlike.differs ?_⟩
    · rw [hsame] at hended
      exact hended _ List.mem_cons_self _ rfl ⟨rfl, _, rfl, hunlike.line⟩
    · rw [Scan.bare_cons (by decide), Scan.bare_cons (by decide), Scan.bare_cons (by decide),
        Scan.bare_cons (by decide), hbare] at heq
      exact (List.cons.inj (List.cons.inj heq).2).2

/-- What follows a token in its group. -/
theorem followers_returned (kind : TokenKind) (chars : List Char) :
    (if kind = .includeDirective then Scan.includeTail (returned chars) else [])
        = (if kind = .includeDirective then Scan.includeTail chars else []) ∧
      Piece.NoneContinued (if kind = .includeDirective then Scan.includeTail chars else []) ∧
      (returned chars).drop
          (Piece.total (if kind = .includeDirective then Scan.includeTail chars else []))
        = returned (chars.drop
          (Piece.total (if kind = .includeDirective then Scan.includeTail chars else []))) := by
  split
  · obtain ⟨hsame, hline⟩ := Scan.includeTail_returned chars
    refine ⟨hsame, fun piece hmem kind hkind hcontinues => ?_, ?_⟩
    · rw [hcontinues.1] at hkind
      rcases Scan.kind_of_mem_includeTail hmem with hnone | hpunct | hpath
      · simp [hnone] at hkind
      · simp [hpunct] at hkind
      · simp [hpath] at hkind
    · rw [Piece.total_eq_length, Scan.drop_returned_line (Scan.includeTail_text chars) hline]
  · exact ⟨rfl, fun piece hmem => absurd hmem List.not_mem_nil, rfl⟩

theorem groups_of_token {c : Char} {rest : List Char} (hblank : isBlank c = false)
    (h : '\r' ∉ c :: rest) (hline : ∀ body, c :: rest ≠ '/' :: '/' :: body) :
    GroupsAlike (c :: rest) (returned (c :: rest)) := by
  have hfeed : c ≠ '\n' := by
    rintro rfl
    cases hblank
  obtain ⟨hkind, hlength⟩ := Scan.nextToken_returned hfeed h hline
  have hnone : (c :: rest).takeWhile isBlank = [] := by simp [hblank]
  have hnone' : (returned (c :: rest)).takeWhile isBlank = [] := by
    rw [returned_cons hfeed]
    simp [hblank]
  have hgroup := Scan.nextPieces_token hnone
  have hgroup' := Scan.nextPieces_token hnone'
  rw [hkind, hlength, take_returned, drop_returned] at hgroup'
  generalize (Scan.nextToken (c :: rest)).1 = kind at hgroup hgroup'
  generalize (Scan.nextToken (c :: rest)).2 = length at hgroup hgroup'
  obtain ⟨hsame, hended, hdrop⟩ := followers_returned kind ((c :: rest).drop length)
  rw [hsame] at hgroup'
  generalize (if kind = .includeDirective then Scan.includeTail ((c :: rest).drop length) else [])
    = followers at hgroup hgroup' hended hdrop
  have hreturn : '\r' ∉ (c :: rest).take length := mt List.mem_of_mem_take h
  constructor
  · rw [hgroup, hgroup', Piece.spelling, Piece.spelling, List.filterMap_cons, List.filterMap_cons]
    simp only [Option.map_some, bare_returned hreturn, bare_of_not_mem hreturn]
  · rw [hgroup, Piece.NoneContinued, List.forall_mem_cons]
    refine ⟨?_, hended⟩
    rintro kind ⟨⟩ ⟨-, body, hbody, -⟩
    have hfront : (c :: rest).take length = '/' :: '/' :: body := hbody
    have hwhole := List.take_append_drop length (c :: rest)
    rw [hfront] at hwhole
    exact hline _ hwhole.symm
  · rw [hgroup, hgroup', Piece.total, Piece.total, ← List.drop_drop, ← List.drop_drop,
      drop_returned, hdrop, drop_length_take]
    exact .inl rfl

/-- The groups at the front of two texts are alike, or comments of which one goes on behind its
line. -/
theorem groups_of_returned (hne : chars ≠ []) (h : '\r' ∉ chars)
    (hreturned : Scan.Returned chars other) :
    GroupsAlike chars other ∨ GroupsUnlike chars other := by
  by_cases hblank : chars.takeWhile isBlank = []
  · obtain ⟨c, rest, rfl⟩ := List.exists_cons_of_ne_nil hne
    have hc : isBlank c = false := by
      by_contra hc
      simp [hc] at hblank
    obtain rfl : other = returned (c :: rest) := by
      refine hreturned.resolve_right ?_
      rintro ⟨behind, heq, -⟩
      obtain ⟨rfl, -⟩ := List.cons.inj heq
      cases hc
    by_cases hline : ∃ body, c :: rest = '/' :: '/' :: body
    · obtain ⟨body, hbody⟩ := hline
      rw [hbody] at h ⊢
      exact groups_of_lineComment fun hmem => h (by simp [hmem])
    · exact .inl (groups_of_token hc h (not_exists.mp hline))
  · exact .inl (groups_of_blank hreturned hblank)

theorem pieces_returned (h : '\r' ∉ chars) (hreturned : Scan.Returned chars other) :
    Piece.spelling (pieces other) = Piece.spelling (pieces chars)
      ↔ Piece.NoneContinued (pieces chars) := by
  induction chars using pieces_induction generalizing other with
  | nil =>
    obtain rfl : other = [] := by
      rcases hreturned with heq | ⟨rest, heq, -⟩
      · exact heq
      · cases heq
    exact ⟨fun _ piece hmem => (List.not_mem_nil hmem).elim, fun _ => rfl⟩
  | step chars hne ih =>
    have hne' : other ≠ [] := by
      rcases hreturned with rfl | ⟨rest, rfl, rfl⟩
      · rwa [ne_eq, returned_eq_nil_iff]
      · exact List.cons_ne_nil _ _
    have hrest : '\r' ∉ chars.drop (Piece.total (Scan.nextPieces chars)) :=
      mt List.mem_of_mem_drop h
    rw [pieces_eq hne, pieces_eq hne', Piece.spelling_append, Piece.spelling_append,
      Piece.noneContinued_append]
    rcases groups_of_returned hne h hreturned with halike | ⟨hcontinued, text, text', hgroup,
      hgroup', hdiffers⟩
    · rw [halike.spelling, List.append_cancel_left_eq, ih hrest halike.rest]
      exact ⟨fun hended => ⟨halike.ended, hended⟩, And.right⟩
    · refine ⟨fun heq => ?_, fun hended => absurd hended.1 hcontinued⟩
      rw [hgroup, hgroup'] at heq
      exact absurd (congrArg Prod.snd (List.cons.inj heq).1) hdiffers

end

/-! ## Tokens -/

/-- With a carriage return in front of every line feed a text has the same tokens, but for the
carriage returns, exactly if no line comment goes on behind its line. -/
theorem tokenize_returned_iff (chars : List Char) (h : '\r' ∉ chars) :
    (tokenize (returned chars)).map Token.spelling = (tokenize chars).map Token.spelling
      ↔ ∀ token ∈ tokenize chars, ¬ token.Continued := by
  rw [tokenize, tokenize, place_spelling, place_spelling, place_noneContinued]
  exact pieces_returned h (.inl rfl)

/-- A directive goes on behind its line in both texts. -/
theorem tokenize_returned_directive :
    '\r' ∉ "#a\\\nb\nc".toList ∧
      (tokenize (returned "#a\\\nb\nc".toList)).map Token.spelling
        = (tokenize "#a\\\nb\nc".toList).map Token.spelling := by
  have hreturn : '\r' ∉ "#a\\\nb\nc".toList := by decide
  have hkinds : (tokenize "#a\\\nb\nc".toList).all (·.kind != .comment) = true := by decide +kernel
  refine ⟨hreturn, (tokenize_returned_iff _ hreturn).mpr fun token hmem hcontinued => ?_⟩
  have hkind := List.all_eq_true.mp hkinds token hmem
  rw [hcontinued.1] at hkind
  cases hkind

/-- A line comment that a backslash continues ends before the line feed if a carriage return
stands there. -/
theorem tokenize_returned_comment :
    ¬ ∀ chars : List Char, '\r' ∉ chars →
      (tokenize (returned chars)).map Token.spelling = (tokenize chars).map Token.spelling := by
  intro hall
  have hsame := hall "//a\\\nb".toList (by decide)
  revert hsame
  decide +kernel

end Azsl
