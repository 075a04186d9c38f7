/-
Azsl.Proofs.Token.Bound — the tokens between two bounds of a text.

The tokens of a row of pieces depend on where the row starts only through their places. Tokens
in a row are those of pieces in a row, and a bound between tokens is one between pieces; where
the text must not be cut, the tokens before the bound end inside an include.
-/
import Azsl.Proofs.Grammar.Alike
import Azsl.Proofs.Grammar.Cover
import Azsl.Proofs.Token.Cut
import Azsl.Proofs.Token.Place

namespace Azsl

/-! ## Rows of pieces -/

theorem leadsAfter_append (leads : Bool) (left right : List Char) :
    leadsAfter leads (left ++ right) = leadsAfter (leadsAfter leads left) right :=
  List.foldl_append ..

theorem place_append (here : Location) (leads : Bool) (left right : List Piece) :
    place here leads (left ++ right) = place here leads left ++
      place (here.advance (Piece.text left)) (leadsAfter leads (Piece.text left)) right := by
  induction left generalizing here leads with
  | nil => rfl
  | cons piece rest ih =>
    simp only [List.cons_append, place, ih, Piece.text_cons, Location.advance_append,
      leadsAfter_append]
    cases piece.kind <;> rfl

theorem place_cons_none {here : Location} {leads : Bool} {piece : Piece} (h : piece.kind = none)
    (rest : List Piece) : place here leads (piece :: rest)
      = place (here.advance piece.chars) (leadsAfter leads piece.chars) rest := by
  simp only [place, h]

theorem place_cons_some {here : Location} {leads : Bool} {piece : Piece} {kind : TokenKind}
    (h : piece.kind = some kind) (rest : List Piece) : place here leads (piece :: rest)
      = ⟨kind, here, here.advance piece.chars, String.ofList piece.chars, leads⟩ ::
        place (here.advance piece.chars) (leadsAfter leads piece.chars) rest := by
  simp only [place, h]

/-- A token stands for a piece, and those before and behind it for the pieces there. -/
theorem place_eq_append {here : Location} {leads : Bool} {row : List Piece}
    {before : List Token} {token : Token} {behind : List Token}
    (h : place here leads row = before ++ token :: behind) :
    ∃ left piece right, row = left ++ piece :: right ∧ place here leads left = before ∧
      piece.kind = some token.kind ∧
      place (here.advance (Piece.text left)) (leadsAfter leads (Piece.text left)) (piece :: right)
        = token :: behind := by
  induction row generalizing here leads before with
  | nil => simp [place] at h
  | cons first rest ih =>
    cases hkind : first.kind with
    | none =>
      rw [place_cons_none hkind] at h
      obtain ⟨left, piece, right, rfl, hleft, hpiece, hright⟩ := ih h
      refine ⟨first :: left, piece, right, rfl, ?_, hpiece, ?_⟩
      · rw [place_cons_none hkind, hleft]
      · rw [Piece.text_cons, Location.advance_append, leadsAfter_append, hright]
    | some kind =>
      cases before with
      | nil =>
        refine ⟨[], first, rest, rfl, rfl, ?_, h⟩
        rw [place_cons_some hkind] at h
        rw [hkind, ← (List.cons.inj h).1]
      | cons other before =>
        rw [place_cons_some hkind] at h
        obtain ⟨hother, h⟩ := List.cons.inj h
        obtain ⟨left, piece, right, rfl, hleft, hpiece, hright⟩ := ih h
        refine ⟨first :: left, piece, right, rfl, ?_, hpiece, ?_⟩
        · rw [place_cons_some hkind, hleft, hother]
        · rw [Piece.text_cons, Location.advance_append, leadsAfter_append, hright]

/-- A token stands for every piece that is not white space. -/
theorem exists_mem_place {here : Location} {leads : Bool} {row : List Piece} {piece : Piece}
    {kind : TokenKind} (hmem : piece ∈ row) (hkind : piece.kind = some kind) :
    ∃ token ∈ place here leads row, token.kind = kind ∧ token.text.toList = piece.chars := by
  induction row generalizing here leads with
  | nil => cases hmem
  | cons first rest ih =>
    rcases List.mem_cons.mp hmem with rfl | hmem
    · rw [place_cons_some hkind]
      exact ⟨_, List.mem_cons_self, rfl, String.toList_ofList⟩
    · obtain ⟨token, htoken, hsame⟩ := @ih (here.advance first.chars)
        (leadsAfter leads first.chars) hmem
      refine ⟨token, ?_, hsame⟩
      cases hfirst : first.kind with
      | none => rwa [place_cons_none hfirst]
      | some other =>
        rw [place_cons_some hfirst]
        exact List.mem_cons_of_mem _ htoken

/-- Rows of the same pieces have the same tokens, but for their places. -/
theorem place_lift {d e : Nat} {here here' : Location} (h : here.byte + d = here'.byte + e)
    (leads leads' : Bool) (row : List Piece) :
    (place here leads row).map (Token.lift d) = (place here' leads' row).map (Token.lift e) := by
  induction row generalizing here here' leads leads' with
  | nil => rfl
  | cons piece rest ih =>
    have hstop : (here.advance piece.chars).byte + d = (here'.advance piece.chars).byte + e := by
      rw [Location.byte_advance, Location.byte_advance]
      omega
    cases hkind : piece.kind with
    | none =>
      rw [place_cons_none hkind, place_cons_none hkind]
      exact ih hstop ..
    | some kind =>
      rw [place_cons_some hkind, place_cons_some hkind, List.map_cons, List.map_cons, ih hstop]
      congr 1
      exact Token.lift_eq_iff.mpr ⟨rfl, rfl, h, hstop⟩

/-! ## Lexemes -/

namespace Lexeme

theorem group_cons_trivia {token : Token} {rest : List Token} (h : token.kind.isTrivia = true) :
    group (token :: rest) =
      match (group rest).1 with
      | [] => ([], token :: (group rest).2)
      | next :: others =>
        ({ next with leading := token :: next.leading } :: others, (group rest).2) := by
  cases hrest : (group rest).1 with
  | nil => simp [group, h, hrest]
  | cons next others => simp [group, h, hrest]

theorem group_cons {token : Token} {rest : List Token} (h : token.kind.isTrivia = false) :
    group (token :: rest) = (⟨[], token⟩ :: (group rest).1, (group rest).2) := by
  simp only [group, h, Bool.false_eq_true, if_false]

/-- What is left over is trivia behind the last token. -/
theorem group_snd_eq_nil {tokens : List Token} {last : Token} (h : tokens.getLast? = some last)
    (hkind : last.kind.isTrivia = false) : (group tokens).1 ≠ [] ∧ (group tokens).2 = [] := by
  induction tokens with
  | nil => cases h
  | cons token rest ih =>
    cases rest with
    | nil =>
      obtain rfl : token = last := by simpa using h
      rw [group_cons hkind]
      exact ⟨List.cons_ne_nil _ _, rfl⟩
    | cons next others =>
      obtain ⟨hne, hnil⟩ := ih (by rwa [List.getLast?_cons_cons] at h)
      cases htrivia : token.kind.isTrivia with
      | false =>
        rw [group_cons htrivia]
        exact ⟨List.cons_ne_nil _ _, hnil⟩
      | true =>
        rw [group_cons_trivia htrivia]
        cases hgroup : (group (next :: others)).1 with
        | nil => exact absurd hgroup hne
        | cons first more => exact ⟨List.cons_ne_nil _ _, hnil⟩

theorem group_append {front : List Token} {last : Token} (h : front.getLast? = some last)
    (hkind : last.kind.isTrivia = false) (back : List Token) :
    group (front ++ back) = ((group front).1 ++ (group back).1, (group back).2) := by
  induction front with
  | nil => cases h
  | cons token rest ih =>
    cases rest with
    | nil =>
      obtain rfl : token = last := by simpa using h
      rw [List.singleton_append, group_cons hkind, group_cons hkind]
      rfl
    | cons next others =>
      have hlast : (next :: others).getLast? = some last := by rwa [List.getLast?_cons_cons] at h
      obtain ⟨hne, hnil⟩ := group_snd_eq_nil hlast hkind
      cases htrivia : token.kind.isTrivia with
      | false =>
        rw [List.cons_append, group_cons htrivia, group_cons htrivia, ih hlast]
        rfl
      | true =>
        rw [List.cons_append, group_cons_trivia htrivia, group_cons_trivia htrivia, ih hlast]
        cases hgroup : (group (next :: others)).1 with
        | nil => exact absurd hgroup hne
        | cons first more => rfl

theorem group_lift (shift : Nat) (tokens : List Token) :
    (group (tokens.map (Token.lift shift))).1 = (group tokens).1.map (lift shift) := by
  have hboth : group (tokens.map (Token.lift shift))
      = ((group tokens).1.map (lift shift), (group tokens).2.map (Token.lift shift)) := by
    induction tokens with
    | nil => rfl
    | cons token rest ih =>
      cases htrivia : token.kind.isTrivia with
      | false =>
        have hlift : (token.lift shift).kind.isTrivia = false := htrivia
        rw [List.map_cons, group_cons htrivia, group_cons hlift, ih]
        rfl
      | true =>
        have hlift : (token.lift shift).kind.isTrivia = true := htrivia
        rw [List.map_cons, group_cons_trivia htrivia, group_cons_trivia hlift, ih]
        cases (group rest).1 <;> rfl
  rw [hboth]

/-- Lexemes are what their tokens are grouped into. -/
theorem group_flatMap {lexemes : List Lexeme} {trailing : List Token}
    (hlexemes : ∀ lexeme ∈ lexemes, (∀ token ∈ lexeme.leading, token.kind.isTrivia = true) ∧
      lexeme.token.kind.isTrivia = false)
    (htrailing : ∀ token ∈ trailing, token.kind.isTrivia = true) :
    group (lexemes.flatMap (fun lexeme => lexeme.leading ++ [lexeme.token]) ++ trailing)
      = (lexemes, trailing) := by
  induction lexemes with
  | nil =>
    rw [List.flatMap_nil, List.nil_append]
    induction trailing with
    | nil => rfl
    | cons token rest ih =>
      rw [group_cons_trivia (htrailing token List.mem_cons_self),
        ih fun token hmem => htrailing token (List.mem_cons_of_mem _ hmem)]
  | cons first others ih =>
    obtain ⟨hleading, hkind⟩ := hlexemes first List.mem_cons_self
    have hothers := ih fun lexeme hmem => hlexemes lexeme (List.mem_cons_of_mem _ hmem)
    rw [List.flatMap_cons, List.append_assoc, List.append_assoc, List.singleton_append]
    clear ih hlexemes
    obtain ⟨leading, token⟩ := first
    simp only at hleading hkind ⊢
    induction leading with
    | nil => rw [List.nil_append, group_cons hkind, hothers]
    | cons trivia more ih =>
      rw [List.cons_append, group_cons_trivia (hleading trivia List.mem_cons_self),
        ih fun token hmem => hleading token (List.mem_cons_of_mem _ hmem)]

end Lexeme

/-- What is left of the input is what the tokens left are grouped into. -/
theorem ParseState.Ready.group_stream {state : ParseState} {here : Nat} (h : state.Ready here) :
    Lexeme.group state.stream = (state.rest, state.trailing) :=
  Lexeme.group_flatMap h.lexemes h.trailing

/-! ## Bounds between tokens -/

namespace Token

/-- The tokens that the grammar sees. -/
def plain (tokens : List Token) : List Token :=
  tokens.filter (!·.kind.isTrivia)

/-- Tokens that end inside an include: on the directive, on the delimiter that opens its path or
on the path. -/
def Awaits (tokens : List Token) : Prop :=
  ∃ before directive more, tokens = before ++ directive :: more ∧
    directive.kind = .includeDirective ∧
    (more = [] ∨ ∃ opening, opening.kind = .punct ∧ (opening.text = "\"" ∨ opening.text = "<") ∧
      (more = [opening] ∨ ∃ path, path.kind = .includePath ∧ more = [opening, path]))

/-- Tokens that end on a closing token, or on the delimiter that closes a path. -/
def Closed (tokens : List Token) : Prop :=
  ∃ before closing, tokens = before ++ [closing] ∧
    (closing.kind = .word ∨ closing.kind = .punct) ∧
    (closing.text ∈ [";", "\x7d", "]"] ∨
      ∃ front path, before = front ++ [path] ∧ path.kind = .includePath)

theorem Closed.append {tokens : List Token} (h : Closed tokens) (front : List Token) :
    Closed (front ++ tokens) := by
  obtain ⟨before, closing, rfl, hkind, hclosing⟩ := h
  refine ⟨front ++ before, closing, by simp, hkind, hclosing.imp id ?_⟩
  rintro ⟨more, path, rfl, hpath⟩
  exact ⟨front ++ more, path, by simp, hpath⟩

theorem Closed.not_awaits {tokens : List Token} (h : Closed tokens) : ¬ Awaits tokens := by
  obtain ⟨before, closing, rfl, hkind, hclosing⟩ := h
  rintro ⟨front, directive, more, heq, hdirective, hmore⟩
  rcases hmore with rfl | ⟨opening, hpunct, htext, rfl | ⟨path, hpath, rfl⟩⟩
  · obtain ⟨-, hlast⟩ := List.append_inj' heq rfl
    obtain rfl : closing = directive := by simpa using hlast
    simp [hdirective] at hkind
  · rw [List.append_cons front directive] at heq
    obtain ⟨hbefore, hlast⟩ := List.append_inj' heq rfl
    obtain rfl : closing = opening := by simpa using hlast
    rcases hclosing with hmem | ⟨_, path, rfl, hpath⟩
    · rcases htext with htext | htext <;> simp [htext] at hmem
    · obtain ⟨-, hlast⟩ := List.append_inj' hbefore rfl
      obtain rfl : path = directive := by simpa using hlast
      rw [hdirective] at hpath
      cases hpath
  · rw [List.append_cons front directive, List.append_cons _ opening] at heq
    obtain ⟨-, hlast⟩ := List.append_inj' heq rfl
    obtain rfl : closing = path := by simpa using hlast
    simp [hpath] at hkind

end Token

theorem leadsAfter_false {chars : List Char} (h : ∀ c ∈ chars, c ≠ '\n') :
    leadsAfter false chars = false := by
  induction chars with
  | nil => rfl
  | cons c rest ih =>
    have hc := h c List.mem_cons_self
    rw [← List.singleton_append, leadsAfter_append]
    simp only [leadsAfter, List.foldl_cons, List.foldl_nil, hc, if_false, Bool.false_and]
    exact ih fun d hd => h d (List.mem_cons_of_mem _ hd)

namespace Unfinished

variable {row before more : List Piece} {blanks : List Char}

/-- The tokens of pieces that end inside an include do so too. -/
theorem awaits (h : Unfinished row before more blanks) (here : Location) (leads : Bool) :
    Token.Awaits (Token.plain (place here leads row)) := by
  obtain ⟨rfl, -, hmore⟩ := h
  rw [List.append_assoc, place_append, Token.plain, List.filter_append, List.cons_append,
    place_cons_some rfl, List.filter_cons_of_pos rfl]
  generalize here.advance (Piece.text before) = here
  generalize leadsAfter leads (Piece.text before) = leads
  refine ⟨_, _, _, rfl, rfl, ?_⟩
  have hgap : ∀ (here : Location) (leads : Bool), place here leads (Scan.gap blanks) = [] := by
    intro here leads
    unfold Scan.gap
    split <;> rfl
  rw [place_append, hgap, List.nil_append]
  rcases hmore with rfl | ⟨opening, hopening, rfl | ⟨path, -, rfl⟩⟩
  · exact .inl rfl
  · refine .inr ⟨_, ?_, ?_, .inl rfl⟩
    · rfl
    · rcases hopening with rfl | rfl
      · exact .inl rfl
      · exact .inr rfl
  · refine .inr ⟨_, ?_, ?_, .inr ⟨_, ?_, rfl⟩⟩
    · rfl
    · rcases hopening with rfl | rfl
      · exact .inl rfl
      · exact .inr rfl
    · rfl

/-- Nothing inside an include is the first on its line. -/
theorem leadsAfter_eq (h : Unfinished row before more blanks) (leads : Bool) :
    leadsAfter leads (Piece.text row) = false := by
  obtain ⟨rfl, hblanks, hmore⟩ := h
  have hname : ∀ leads, leadsAfter leads "#include".toList = false := by decide
  have hfeed : ∀ c ∈ blanks, c ≠ '\n' := by
    rintro c hc rfl
    exact absurd (hblanks _ hc) (by decide)
  have hpath : ∀ {path : List Char}, (∀ c ∈ path, Scan.isPathChar c = true) →
      ∀ c ∈ path, c ≠ '\n' := by
    rintro path hpath c hc rfl
    exact absurd (hpath _ hc) (by decide)
  simp only [Piece.text_append, Piece.text_cons, leadsAfter_append, hname, Scan.text_gap,
    leadsAfter_false hfeed]
  rcases hmore with rfl | ⟨opening, hopening, rfl | ⟨path, hchars, rfl⟩⟩
  · rfl
  · rcases hopening with rfl | rfl <;> rfl
  · refine leadsAfter_false ?_
    intro c hc
    simp only [Piece.text_cons, Piece.text_nil, List.singleton_append, List.append_nil,
      List.mem_cons] at hc
    rcases hc with rfl | hc
    · rcases hopening with rfl | rfl <;> decide
    · exact hpath hchars c hc

end Unfinished

/-- A text may be cut before a token unless the token belongs to an include that starts before
it. -/
theorem cut_before {here : Location} {leads : Bool} {chars : List Char} {before : List Token}
    {token : Token} {behind : List Token}
    (h : place here leads (pieces chars) = before ++ token :: behind)
    (hbound : ¬ Token.Awaits (Token.plain before) ∨ token.leadsLine = true ∨
      token.kind = .includeDirective) :
    ∃ row rest piece others, Cut chars row rest ∧ pieces rest = piece :: others ∧
      piece.kind = some token.kind ∧
      place (here.advance (Piece.text row)) (leadsAfter leads (Piece.text row)) (pieces rest)
        = token :: behind := by
  obtain ⟨row, piece, others, hpieces, rfl, hkind, hbehind⟩ := place_eq_append h
  rcases cut_or_unfinished hpieces with ⟨rest, hcut, hrest⟩ | ⟨_, _, _, hunfinished, hhead⟩
  · exact ⟨row, rest, piece, others, hcut, hrest, hkind, by rwa [hrest]⟩
  · exfalso
    rcases hbound with hbound | hbound | hbound
    · exact hbound (hunfinished.awaits here leads)
    · rw [place_cons_some hkind] at hbehind
      rw [← (List.cons.inj hbehind).1, hunfinished.leadsAfter_eq] at hbound
      cases hbound
    · exact (hhead piece rfl).directive (hbound ▸ hkind)

/-- A text may be cut behind a token that does not end inside an include. -/
theorem cut_behind {here : Location} {leads : Bool} {chars : List Char} {before : List Token}
    {token : Token} {behind : List Token}
    (h : place here leads (pieces chars) = before ++ token :: behind)
    (hbound : ¬ Token.Awaits (Token.plain (before ++ [token]))) :
    ∃ row piece rest, Cut chars (row ++ [piece]) rest ∧
      place here leads (row ++ [piece]) = before ++ [token] ∧
      piece.kind = some token.kind ∧ token.text.toList = piece.chars ∧
      place (here.advance (Piece.text (row ++ [piece])))
        (leadsAfter leads (Piece.text (row ++ [piece]))) (pieces rest) = behind := by
  obtain ⟨row, piece, others, hpieces, rfl, hkind, hbehind⟩ := place_eq_append h
  rw [place_cons_some hkind] at hbehind
  obtain ⟨htoken, hbehind⟩ := List.cons.inj hbehind
  have hplace : place here leads (row ++ [piece]) = place here leads row ++ [token] := by
    rw [place_append, place_cons_some hkind, ← htoken]
    rfl
  rw [List.append_cons] at hpieces
  rcases cut_or_unfinished hpieces with ⟨rest, hcut, hrest⟩ | ⟨_, _, _, hunfinished, -⟩
  · refine ⟨row, piece, rest, hcut, hplace, hkind, ?_, ?_⟩
    · rw [← htoken, String.toList_ofList]
    · rw [hrest, Piece.text_append, Location.advance_append, leadsAfter_append]
      simpa using hbehind
  · exact absurd (hplace ▸ hunfinished.awaits here leads) hbound

/-- The delimiter that opens a path stands right before it. -/
theorem opening_of_path {here : Location} {leads : Bool} {chars : List Char}
    {before : List Token} {token : Token} {behind : List Token}
    (h : place here leads (pieces chars) = before ++ token :: behind)
    (htoken : token.kind = .includePath) :
    ∃ front opening, before = front ++ [opening] ∧ opening.kind = .punct := by
  obtain ⟨row, piece, others, hpieces, rfl, hkind, -⟩ := place_eq_append h
  rw [htoken] at hkind
  rcases cut_or_unfinished hpieces with ⟨rest, -, hrest⟩ | ⟨_, _, _, hunfinished, hhead⟩
  · exact absurd hkind (kind_ne_includePath hrest)
  · obtain ⟨opening, hmore⟩ := (hhead piece rfl).path hkind
    rw [hunfinished.row, hmore, place_append, place_cons_some rfl]
    exact ⟨_, _, rfl, rfl⟩

/-- A group is white space, trivia, or starts with a token that has a width. -/
theorem nextPieces_cases {chars : List Char} (hne : chars ≠ []) :
    (∃ blanks, Scan.nextPieces chars = [⟨none, blanks⟩]) ∨
      ∃ kind text tail, Scan.nextPieces chars = ⟨some kind, text⟩ :: tail ∧ text ≠ [] ∧
        (kind.isTrivia = true → tail = []) := by
  by_cases hblank : chars.takeWhile isBlank = []
  · refine .inr ⟨_, _, _, Scan.nextPieces_token hblank,
      Scan.take_ne_nil hne (Scan.nextToken_length_pos chars), fun htrivia => if_neg ?_⟩
    intro hkind
    rw [hkind] at htrivia
    cases htrivia
  · exact .inl ⟨_, Scan.nextPieces_blank hblank⟩

/-- The first token of a text that is not trivia has a width. -/
theorem head_width {here : Location} {leads : Bool} {chars : List Char} {next : Lexeme}
    (h : (Lexeme.group (place here leads (pieces chars))).1.head? = some next) :
    next.token.start.byte < next.token.stop.byte := by
  induction chars using pieces_induction generalizing here leads next with
  | nil => simp [pieces, piecesAfter, place, Lexeme.group] at h
  | step chars hne ih =>
    rw [pieces_eq hne] at h
    generalize pieces (chars.drop (Piece.total (Scan.nextPieces chars))) = others at h ih
    rcases nextPieces_cases hne with ⟨blanks, hgroup⟩ | ⟨kind, text, tail, hgroup, htext, htail⟩
    · rw [hgroup, List.singleton_append, place_cons_none rfl] at h
      exact ih h
    · rw [hgroup, List.cons_append, place_cons_some rfl] at h
      cases htrivia : kind.isTrivia with
      | false =>
        have hwidth := byteLength_pos htext
        rw [Lexeme.group_cons htrivia] at h
        obtain rfl := Option.some.inj h
        simp only [Location.byte_advance]
        omega
      | true =>
        rw [Lexeme.group_cons_trivia htrivia, htail htrivia, List.nil_append] at h
        split at h
        · cases h
        · rename_i first more hmore
          have hfirst := ih (congrArg List.head? hmore)
          obtain rfl := Option.some.inj h
          exact hfirst

end Azsl
