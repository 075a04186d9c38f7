/-
Azsl.Proofs.Grammar.Cover — nodes in a row cover tokens in a row.

`Covers` says what the nodes that a production builds have to do with the tokens it takes: every
token is a leaf, a part of a leaf that joins it with its neighbours, or a string split into its
parts, in the order of the text. It also keeps track of the bytes between which the nodes stand,
so that nodes in a row never overlap.
-/
import Azsl.Proofs.Grammar.Progress
import Azsl.Proofs.Text.Bytes

namespace Azsl

/-! ## Tokens in place -/

namespace Token

/-- A string with its quotes, in place. -/
def Quoted (token : Token) : Prop :=
  (∃ inner, token.text.toList = '"' :: inner ++ ['"']) ∧
    token.stop = token.start.advance token.text.toList

/-- What the tokens of a text have in common: trivia has a width, and strings their quotes. -/
structure Fine (token : Token) : Prop where
  width : token.kind.isTrivia = true → token.start.byte < token.stop.byte
  quoted : token.kind = .stringLiteral → token.Quoted

end Token

/-- Things in a row from one byte to another that do not overlap. -/
def InOrder {α : Type} (start stop : α → Nat) (hi : Nat) : Nat → List α → Prop
  | lo, [] => lo ≤ hi
  | lo, first :: rest =>
    lo ≤ start first ∧ start first ≤ stop first ∧ InOrder start stop hi (stop first) rest

namespace InOrder

variable {α : Type} {start stop : α → Nat} {lo hi : Nat}

theorem le {row : List α} (h : InOrder start stop hi lo row) : lo ≤ hi := by
  induction row generalizing lo with
  | nil => exact h
  | cons first rest ih =>
    obtain ⟨hstart, hwidth, hrest⟩ := h
    have := ih hrest
    omega

theorem weaken {lo' : Nat} {row : List α} (h : InOrder start stop hi lo row) (hle : lo' ≤ lo) :
    InOrder start stop hi lo' row := by
  cases row with
  | nil => exact Nat.le_trans hle h
  | cons first rest => exact ⟨Nat.le_trans hle h.1, h.2⟩

theorem drop {left right : List α} (h : InOrder start stop hi lo (left ++ right)) :
    ∃ mid, InOrder start stop hi mid right := by
  induction left generalizing lo with
  | nil => exact ⟨lo, h⟩
  | cons first rest ih => exact ih h.2.2

theorem le_start {left right : List α} {next : α}
    (h : InOrder start stop hi lo (left ++ (next :: right))) : lo ≤ start next := by
  induction left generalizing lo with
  | nil => exact h.1
  | cons first rest ih =>
    obtain ⟨hstart, hwidth, hrest⟩ := h
    have := ih hrest
    omega

/-- A group reaches from the start of its first member to the end of its last. -/
theorem group {first : α} {more others : List α}
    (h : InOrder start stop hi lo (first :: more ++ others)) :
    lo ≤ start first ∧ start first ≤ stop ((first :: more).getLast (by simp)) ∧
      InOrder start stop hi (stop ((first :: more).getLast (by simp))) others := by
  induction more generalizing lo first with
  | nil => exact h
  | cons second more ih =>
    obtain ⟨hstart, hwidth, hrest⟩ := h
    obtain ⟨hstart', hwidth', hrest'⟩ := ih hrest
    rw [List.getLast_cons_cons]
    exact ⟨hstart, by omega, hrest'⟩

theorem pairwise {row : List α} (h : InOrder start stop hi lo row) :
    row.Pairwise fun first second => stop first ≤ start second := by
  induction row generalizing lo with
  | nil => exact .nil
  | cons first rest ih =>
    obtain ⟨-, -, hrest⟩ := h
    refine .cons (fun second hmem => ?_) (ih hrest)
    obtain ⟨left, right, rfl⟩ := List.append_of_mem hmem
    exact hrest.le_start

theorem le_start_of_mem {row : List α} (h : InOrder start stop hi lo row) {item : α}
    (hmem : item ∈ row) : lo ≤ start item := by
  obtain ⟨left, right, rfl⟩ := List.append_of_mem hmem
  exact h.le_start

theorem stop_le {row : List α} (h : InOrder start stop hi lo row) {item : α}
    (hmem : item ∈ row) : stop item ≤ hi := by
  obtain ⟨left, right, rfl⟩ := List.append_of_mem hmem
  obtain ⟨mid, -, -, hrest⟩ := h.drop
  exact hrest.le

theorem start_le_stop {row : List α} (h : InOrder start stop hi lo row) {item : α}
    (hmem : item ∈ row) : start item ≤ stop item := by
  obtain ⟨left, right, rfl⟩ := List.append_of_mem hmem
  obtain ⟨mid, -, hwidth, -⟩ := h.drop
  exact hwidth

end InOrder

/-- Tokens in a row that do not overlap. -/
abbrev Token.Ordered (hi lo : Nat) (tokens : List Token) : Prop :=
  InOrder (·.start.byte) (·.stop.byte) hi lo tokens

/-! ## Covering -/

/-- Nodes in a row between two bytes cover tokens in a row. An error of no width stands for a
token that is missing at the end of the text. -/
inductive Covers (textEnd : Location) : Nat → Nat → List Node → List Token → Prop
  | nil {lo hi} : lo ≤ hi → Covers textEnd lo hi [] []
  | trivia {lo hi token nodes tokens} :
      token.kind.isTrivia = true → lo ≤ token.start.byte → token.start.byte ≤ token.stop.byte →
      Covers textEnd token.stop.byte hi nodes tokens →
      Covers textEnd lo hi (ParseState.triviaNode token :: nodes) (token :: tokens)
  | leaf {lo hi kind first more last nodes tokens} :
      kind.isLeaf = true → (∀ token ∈ first :: more, token.kind.isTrivia = false) →
      (first :: more).getLast? = some last → lo ≤ first.start.byte →
      first.start.byte ≤ last.stop.byte → Covers textEnd last.stop.byte hi nodes tokens →
      Covers textEnd lo hi (.leaf kind first.start last.stop :: nodes) (first :: more ++ tokens)
  | string {lo hi token nodes tokens} :
      token.kind = .stringLiteral → token.Quoted → lo ≤ token.start.byte →
      Covers textEnd token.stop.byte hi nodes tokens →
      Covers textEnd lo hi
        (.ofChildren .stringLiteral (Production.stringParts token) :: nodes) (token :: tokens)
  | composite {lo mid hi kind children inner nodes tokens} :
      (kind.isComposite = true ∨
        kind = .error ∧ ∀ child ∈ children, child.children = [] ∧ child.kind ≠ .error) →
      children ≠ [] → Covers textEnd lo mid children inner →
      Covers textEnd mid hi nodes tokens →
      Covers textEnd lo hi (.ofChildren kind children :: nodes) (inner ++ tokens)
  | missing {lo hi nodes tokens} :
      lo ≤ textEnd.byte → Covers textEnd textEnd.byte hi nodes tokens →
      Covers textEnd lo hi (.leaf .error textEnd textEnd :: nodes) tokens

namespace Covers

variable {textEnd : Location} {lo mid hi : Nat} {nodes others : List Node}
  {tokens more : List Token}

theorem le (h : Covers textEnd lo hi nodes tokens) : lo ≤ hi := by
  induction h with
  | nil hle => exact hle
  | trivia _ hlo hwidth _ ih => omega
  | leaf _ _ _ hlo hwidth _ ih => omega
  | @string lo hi token nodes tokens _ hquoted hlo _ ih =>
    have := Location.byte_le_advance token.start token.text.toList
    rw [← hquoted.2] at this
    omega
  | composite _ _ _ _ ih₁ ih₂ => omega
  | missing hlo _ ih => omega

theorem weaken {lo' : Nat} (h : Covers textEnd lo hi nodes tokens) (hle : lo' ≤ lo) :
    Covers textEnd lo' hi nodes tokens := by
  induction h generalizing lo' with
  | nil h => exact .nil (Nat.le_trans hle h)
  | trivia hkind hlo hwidth hrest _ => exact .trivia hkind (Nat.le_trans hle hlo) hwidth hrest
  | leaf hkind hplain hlast hlo hwidth hrest _ =>
    exact .leaf hkind hplain hlast (Nat.le_trans hle hlo) hwidth hrest
  | string hkind hquoted hlo hrest _ => exact .string hkind hquoted (Nat.le_trans hle hlo) hrest
  | composite hkind hne _ hrest ih _ => exact .composite hkind hne (ih hle) hrest
  | missing hlo hrest _ => exact .missing (Nat.le_trans hle hlo) hrest

theorem tokens_eq_nil (h : Covers textEnd lo hi [] tokens) : tokens = [] := by
  cases h
  rfl

theorem append (h : Covers textEnd lo mid nodes tokens)
    (h' : Covers textEnd mid hi others more) :
    Covers textEnd lo hi (nodes ++ others) (tokens ++ more) := by
  induction h with
  | nil hle => exact h'.weaken hle
  | trivia hkind hlo hwidth _ ih => exact .trivia hkind hlo hwidth (ih h')
  | leaf hkind hplain hlast hlo hwidth _ ih =>
    rw [List.cons_append, List.append_assoc]
    exact .leaf hkind hplain hlast hlo hwidth (ih h')
  | string hkind hquoted hlo _ ih => exact .string hkind hquoted hlo (ih h')
  | composite hkind hne hinner _ _ ih =>
    rw [List.cons_append, List.append_assoc]
    exact .composite hkind hne hinner (ih h')
  | missing hlo _ ih => exact .missing hlo (ih h')

/-- Trivia in a row is covered by its nodes. -/
theorem ofTrivia (textEnd : Location) {rest : List Token} (hkind : ∀ token ∈ tokens, token.kind.isTrivia = true)
    (h : Token.Ordered hi lo (tokens ++ rest)) :
    ∃ mid, Covers textEnd lo mid (tokens.map ParseState.triviaNode) tokens ∧
      Token.Ordered hi mid rest := by
  induction tokens generalizing lo with
  | nil => exact ⟨lo, .nil (Nat.le_refl _), h⟩
  | cons token more ih =>
    obtain ⟨hlo, hwidth, hrest⟩ := h
    obtain ⟨mid, hcovers, hordered⟩ :=
      ih (fun token hmem => hkind token (List.mem_cons_of_mem _ hmem)) hrest
    exact ⟨mid, .trivia (hkind token (by simp)) hlo hwidth hcovers, hordered⟩

end Covers

/-! ## States -/

/-- The tokens of lexemes that are not trivia. -/
theorem Lexeme.filter_flatMap {lexemes : List Lexeme}
    (h : ∀ lexeme ∈ lexemes, (∀ token ∈ lexeme.leading, token.kind.isTrivia = true) ∧
      lexeme.token.kind.isTrivia = false) :
    (lexemes.flatMap fun lexeme => lexeme.leading ++ [lexeme.token]).filter (!·.kind.isTrivia)
      = Lexeme.tokens lexemes := by
  induction lexemes with
  | nil => rfl
  | cons first others ih =>
    obtain ⟨hleading, hkind⟩ := h first List.mem_cons_self
    have hnone : first.leading.filter (!·.kind.isTrivia) = [] :=
      List.filter_eq_nil_iff.mpr (by simpa using hleading)
    have hothers := ih fun lexeme hmem => h lexeme (List.mem_cons_of_mem _ hmem)
    rw [List.flatMap_cons, List.filter_append, List.filter_append, hnone, hothers]
    simp [hkind, Lexeme.tokens]

namespace ParseState

/-- Every token that is left, trivia included. -/
def stream (state : ParseState) : List Token :=
  state.rest.flatMap (fun lexeme => lexeme.leading ++ [lexeme.token]) ++ state.trailing

/-- What is left of the input is in place behind a byte. -/
structure Ready (state : ParseState) (here : Nat) : Prop where
  ordered : Token.Ordered state.textEnd.byte here state.stream
  fine : ∀ token ∈ state.stream, token.Fine
  lexemes : ∀ lexeme ∈ state.rest,
    (∀ token ∈ lexeme.leading, token.kind.isTrivia = true) ∧ lexeme.token.kind.isTrivia = false
  trailing : ∀ token ∈ state.trailing, token.kind.isTrivia = true

/-- What was built since the innermost node was opened covers some tokens. -/
def Parsed (state : ParseState) (lo : Nat) (past : List Token) : Prop :=
  ∃ here, Covers state.textEnd lo here state.built.reverse past ∧ state.Ready here

/-- One state comes from another by covering the tokens in between. -/
def Reads (lo : Nat) (past : List Token) (state last : ParseState) : Prop :=
  ∃ taken, state.stream = taken ++ last.stream ∧ last.Parsed lo (past ++ taken) ∧
    last.textEnd = state.textEnd

theorem stream_cons {state : ParseState} {first : Lexeme} {others : List Lexeme}
    (h : state.rest = first :: others) :
    state.stream = first.leading ++ first.token ::
      (others.flatMap (fun lexeme => lexeme.leading ++ [lexeme.token]) ++ state.trailing) := by
  simp [stream, h]

/-- The tokens that are not trivia are those the grammar sees. -/
theorem Ready.filter_stream {state : ParseState} {here : Nat} (h : state.Ready here) :
    state.stream.filter (!·.kind.isTrivia) = Lexeme.tokens state.rest := by
  rw [stream, List.filter_append, Lexeme.filter_flatMap h.lexemes,
    List.filter_eq_nil_iff.mpr (by simpa using h.trailing), List.append_nil]

namespace Reads

variable {lo : Nat} {past : List Token} {first second third : ParseState}

theorem refl {state : ParseState} (h : state.Parsed lo past) : Reads lo past state state :=
  ⟨[], rfl, by rwa [List.append_nil], rfl⟩

theorem parsed (h : Reads lo past first second) : ∃ past', second.Parsed lo past' := by
  obtain ⟨taken, -, hparsed, -⟩ := h
  exact ⟨_, hparsed⟩

theorem trans (h : Reads lo past first second)
    (h' : ∀ past, second.Parsed lo past → Reads lo past second third) :
    Reads lo past first third := by
  obtain ⟨taken, hstream, hparsed, hend⟩ := h
  obtain ⟨taken', hstream', hparsed', hend'⟩ := h' _ hparsed
  refine ⟨taken ++ taken', ?_, ?_, hend'.trans hend⟩
  · rw [hstream, hstream', List.append_assoc]
  · rwa [← List.append_assoc]

end Reads

/-- Trivia before the next token is covered by its nodes. -/
theorem reads_flush {state : ParseState} {lo : Nat} {past : List Token}
    (h : state.Parsed lo past) : Reads lo past state state.flush := by
  obtain ⟨here, hcovers, hready⟩ := h
  cases hrest : state.rest with
  | nil =>
    have hstream : state.stream = state.trailing := by simp [stream, hrest]
    have hordered := hready.ordered
    rw [hstream, ← List.append_nil state.trailing] at hordered
    obtain ⟨mid, htrivia, hmid⟩ := Covers.ofTrivia state.textEnd hready.trailing hordered
    rw [flush_nil hrest]
    refine ⟨state.trailing, by simp [stream, hrest], ⟨mid, ?_, ?_⟩, rfl⟩
    · simpa using hcovers.append htrivia
    · exact ⟨by simpa [stream, hrest] using hmid, by simp [stream, hrest], by simp [hrest],
        by simp⟩
  | cons first others =>
    have hstream := stream_cons hrest
    have hordered := hready.ordered
    rw [hstream] at hordered
    have hlexeme := hready.lexemes first (by simp [hrest])
    obtain ⟨mid, htrivia, hmid⟩ := Covers.ofTrivia state.textEnd hlexeme.1 hordered
    rw [flush_cons hrest]
    refine ⟨first.leading, by simp [stream, hrest], ⟨mid, ?_, ?_⟩, rfl⟩
    · simpa using hcovers.append htrivia
    · refine ⟨by simpa [stream] using hmid, fun token hmem => ?_, fun lexeme hmem => ?_,
        hready.trailing⟩
      · refine hready.fine token ?_
        rw [hstream]
        exact List.mem_append_right _ (by simpa [stream] using hmem)
      · rcases List.mem_cons.mp hmem with rfl | hmem
        · exact ⟨by simp, hlexeme.2⟩
        · exact hready.lexemes lexeme (by simp [hrest, hmem])

theorem flush_flush (state : ParseState) : state.flush.flush = state.flush := by
  cases h : state.rest with
  | nil =>
    have hrest : state.flush.rest = [] := by simp [h, Lexeme.bare]
    rw [flush_nil hrest, flush_nil h]
    simp
  | cons first others =>
    rw [flush_cons h]
    rfl

theorem bumpJoined_flush (state : ParseState) (count : Nat) (kind : NodeKind) :
    state.flush.bumpJoined count kind = state.bumpJoined count kind := by
  simp only [bumpJoined, flush_flush]

/-- Lexemes with nothing before them read as their tokens. -/
theorem flatMap_of_leading_eq_nil {lexemes : List Lexeme}
    (h : ∀ lexeme ∈ lexemes, lexeme.leading = []) :
    lexemes.flatMap (fun lexeme => lexeme.leading ++ [lexeme.token]) = Lexeme.tokens lexemes := by
  induction lexemes with
  | nil => rfl
  | cons first others ih =>
    rw [List.flatMap_cons, h first (by simp),
      ih fun lexeme hmem => h lexeme (List.mem_cons_of_mem _ hmem)]
    rfl

/-- Taking a group of tokens that touch covers them by one leaf. -/
theorem reads_bumpJoined {state : ParseState} {lo count : Nat} {past : List Token}
    {kind : NodeKind} (hkind : kind.isLeaf = true) (hparsed : state.Parsed lo past)
    {first : Lexeme} {more others : List Lexeme} (hrest : state.rest = first :: more ++ others)
    (hcount : more.length = count) (hjoined : ∀ lexeme ∈ more, lexeme.leading = []) :
    Reads lo past state (state.bumpJoined count kind) := by
  refine (reads_flush hparsed).trans fun past' hparsed' => ?_
  obtain ⟨here, hcovers, hready⟩ := hparsed'
  have hflush : state.flush.rest = { first with leading := [] } :: more ++ others := by
    rw [flush_rest, hrest]
    rfl
  have hplain : ∀ lexeme ∈ { first with leading := [] } :: more, lexeme.leading = [] := by
    intro lexeme hmem
    rcases List.mem_cons.mp hmem with rfl | hmem
    · rfl
    · exact hjoined lexeme hmem
  have hstream : state.flush.stream = first.token :: Lexeme.tokens more ++
      (others.flatMap (fun lexeme => lexeme.leading ++ [lexeme.token]) ++
        state.flush.trailing) := by
    rw [stream, hflush, List.flatMap_append, flatMap_of_leading_eq_nil hplain,
      List.append_assoc]
    rfl
  have hordered := hready.ordered
  rw [hstream] at hordered
  obtain ⟨hlo, hwidth, hrestOrdered⟩ := hordered.group
  rw [← bumpJoined_flush, bumpJoined_append kind hflush hcount]
  have hlast : (first.token :: Lexeme.tokens more).getLast?
      = some (({ first with leading := [] } :: more).getLast (by simp)).token := by
    have : first.token :: Lexeme.tokens more
        = Lexeme.tokens ({ first with leading := [] } :: more) := rfl
    rw [this, Lexeme.tokens, List.getLast?_map, List.getLast?_eq_some_getLast (by simp)]
    rfl
  have hlast' : (first.token :: Lexeme.tokens more).getLast (by simp)
      = (({ first with leading := [] } :: more).getLast (by simp)).token := by
    rw [List.getLast?_eq_some_getLast (by simp)] at hlast
    exact Option.some.inj hlast
  rw [hlast'] at hwidth hrestOrdered
  have hnoTrivia : ∀ token ∈ first.token :: Lexeme.tokens more,
      token.kind.isTrivia = false := by
    intro token hmem
    obtain ⟨lexeme, hlexeme, rfl⟩ : ∃ lexeme ∈ { first with leading := [] } :: more,
        lexeme.token = token := List.mem_map.mp hmem
    exact (hready.lexemes lexeme (by rw [hflush]; exact List.mem_append_left _ hlexeme)).2
  refine ⟨first.token :: Lexeme.tokens more, hstream,
    ⟨(({ first with leading := [] } :: more).getLast (by simp)).token.stop.byte, ?_, ?_⟩, rfl⟩
  · simpa using hcovers.append
      (.leaf hkind hnoTrivia hlast hlo hwidth (.nil (Nat.le_refl _)))
  · refine ⟨hrestOrdered, fun token hmem => hready.fine token ?_, fun lexeme hmem => ?_,
      hready.trailing⟩
    · rw [hstream]
      exact List.mem_append_right _ hmem
    · exact hready.lexemes lexeme (by rw [hflush]; exact List.mem_append_right _ hmem)

theorem reads_bump {state : ParseState} {lo : Nat} {past : List Token}
    (hparsed : state.Parsed lo past) : Reads lo past state state.bump := by
  cases hrest : state.rest with
  | nil =>
    rw [bump_nil hrest]
    exact reads_flush hparsed
  | cons first others =>
    have hsplit : state.rest = first :: [] ++ others := hrest
    exact reads_bumpJoined rfl hparsed hsplit rfl (by simp)

/-- A string is covered by its node. -/
theorem reads_string {state last : ParseState} {lo : Nat} {past : List Token}
    (hparsed : state.Parsed lo past) (hrun : Production.stringLiteral state = .ok last) :
    Reads lo past state last := by
  obtain ⟨first, others, hrest, hkind, rfl⟩ := Production.stringLiteral_eq_ok.mp hrun
  refine (reads_flush hparsed).trans fun past' hparsed' => ?_
  obtain ⟨here, hcovers, hready⟩ := hparsed'
  have hflush : state.flush.rest = { first with leading := [] } :: others := by
    rw [flush_rest, hrest]
    rfl
  have hstream := stream_cons hflush
  have hordered := hready.ordered
  rw [hstream] at hordered
  obtain ⟨hlo, -, hrestOrdered⟩ := hordered
  have hfine := hready.fine first.token (by rw [hstream]; simp)
  refine ⟨[first.token], hstream, ⟨first.token.stop.byte, ?_, ?_⟩, rfl⟩
  · simpa [close] using hcovers.append
      (.string hkind (hfine.quoted hkind) hlo (.nil (Nat.le_refl _)))
  · refine ⟨hrestOrdered, fun token hmem => hready.fine token ?_, fun lexeme hmem => ?_,
      hready.trailing⟩
    · rw [hstream]
      exact List.mem_cons_of_mem _ hmem
    · exact hready.lexemes lexeme (by rw [hflush]; exact List.mem_cons_of_mem _ hmem)

/-- A closing token that is missing is an error at the end of the text. -/
theorem reads_missing {state : ParseState} {lo : Nat} {past : List Token}
    (hparsed : state.Parsed lo past) (hrest : state.rest = []) :
    Reads lo past state state.missing := by
  refine (reads_flush hparsed).trans fun past' hparsed' => ?_
  obtain ⟨here, hcovers, hready⟩ := hparsed'
  have hstream : state.flush.stream = [] := by simp [flush_nil hrest, stream, hrest]
  refine ⟨[], rfl, ⟨state.flush.textEnd.byte, ?_, ?_⟩, rfl⟩
  · simpa [missing] using hcovers.append (.missing hready.ordered.le (.nil (Nat.le_refl _)))
  · have hempty : state.missing.stream = [] := hstream
    refine ⟨?_, by simp [hempty], hready.lexemes, hready.trailing⟩
    rw [hempty]
    exact Nat.le_refl _

/-! ## Opening and closing nodes -/

/-- Opening a node starts a row of its own. -/
theorem Parsed.opened {state : ParseState} {lo : Nat} {past : List Token}
    (h : state.Parsed lo past) :
    ∃ here, Covers state.textEnd lo here state.built.reverse past ∧ state.opened.Parsed here [] := by
  obtain ⟨here, hcovers, hready⟩ := h
  exact ⟨here, hcovers, here, .nil (Nat.le_refl _), hready.ordered, hready.fine, hready.lexemes,
    hready.trailing⟩

/-- A row of its own ends up behind the nodes before it, whatever becomes of it. -/
theorem Reads.rejoin {state inner outer : ParseState} {lo here : Nat} {past : List Token}
    (hinner : Reads here [] state.opened inner)
    (hjoin : ∀ {hi taken}, Covers inner.textEnd here hi inner.built.reverse taken →
      Covers inner.textEnd lo hi outer.built.reverse (past ++ taken))
    (hrest : outer.rest = inner.rest) (htrailing : outer.trailing = inner.trailing)
    (hend : outer.textEnd = inner.textEnd) : Reads lo past state outer := by
  obtain ⟨taken, hstream, ⟨hi, hrow, hready⟩, htextEnd⟩ := hinner
  have hsame : outer.stream = inner.stream := by rw [stream, stream, hrest, htrailing]
  refine ⟨taken, ?_, ⟨hi, ?_, ?_⟩, hend.trans htextEnd⟩
  · rw [hsame]
    exact hstream
  · rw [hend]
    exact hjoin (by simpa using hrow)
  · exact ⟨by rw [hend, hsame]; exact hready.ordered, by rw [hsame]; exact hready.fine,
      by rw [hrest]; exact hready.lexemes, by rw [htrailing]; exact hready.trailing⟩

/-- Whatever takes a token builds a node. -/
theorem Reads.built_ne_nil {state last : ParseState} {lo : Nat} {past : List Token}
    (hparsed : state.Parsed lo past) (h : Reads lo past state last)
    (hlt : last.rest.length < state.rest.length) : last.built ≠ [] := by
  intro hnil
  obtain ⟨_, _, hready⟩ := hparsed
  obtain ⟨taken, hstream, ⟨hi, hcovers, hready'⟩, -⟩ := h
  rw [hnil] at hcovers
  have htaken : past ++ taken = [] := hcovers.tokens_eq_nil
  rw [(List.append_eq_nil_iff.mp htaken).2, List.nil_append] at hstream
  have htokens : Lexeme.tokens state.rest = Lexeme.tokens last.rest := by
    rw [← hready.filter_stream, ← hready'.filter_stream, hstream]
  have hlength := congrArg List.length htokens
  simp only [Lexeme.tokens, List.length_map] at hlength
  omega

/-- Closing a node that has children puts it behind what was there before. -/
theorem reads_close {state inner : ParseState} {lo here : Nat} {past : List Token}
    {kind : NodeKind}
    (hkind : kind.isComposite = true ∨
      kind = .error ∧ ∀ child ∈ inner.built, child.children = [] ∧ child.kind ≠ .error)
    (hcovers : Covers state.textEnd lo here state.built.reverse past)
    (hinner : Reads here [] state.opened inner) (hne : inner.built ≠ []) :
    Reads lo past state (state.close kind inner) := by
  have hend : inner.textEnd = state.textEnd := by
    obtain ⟨_, _, _, hend⟩ := hinner
    exact hend
  refine hinner.rejoin (fun hrow => ?_) rfl rfl rfl
  have hnode := Covers.composite (by simpa using hkind) (by simpa using hne) hrow
    (.nil (Nat.le_refl _))
  rw [← hend] at hcovers
  simpa [close] using hcovers.append hnode

/-! ## Passing over input -/

/-- A leaf that is no error. -/
def IsPlainLeaf (node : Node) : Prop :=
  node.children = [] ∧ node.kind ≠ .error

theorem isPlainLeaf_triviaNode (token : Token) : IsPlainLeaf (triviaNode token) := by
  refine ⟨rfl, ?_⟩
  show (if token.kind = .comment then NodeKind.comment else .preprocDirective) ≠ .error
  split <;> simp

/-- Only comments and directives are added in front of a token. -/
theorem mem_built_flush {state : ParseState} {node : Node} (h : node ∈ state.flush.built) :
    node ∈ state.built ∨ IsPlainLeaf node := by
  have hsplit : ∃ trivia : List Token, state.flush.built
      = (trivia.map triviaNode).reverse ++ state.built := by
    cases hrest : state.rest with
    | nil => exact ⟨_, by rw [flush_nil hrest]⟩
    | cons first others => exact ⟨_, by rw [flush_cons hrest]⟩
  obtain ⟨trivia, heq⟩ := hsplit
  rw [heq, List.mem_append, List.mem_reverse, List.mem_map] at h
  rcases h with ⟨token, -, rfl⟩ | h
  · exact .inr (isPlainLeaf_triviaNode token)
  · exact .inl h

theorem isPlainLeaf_flush {state : ParseState} (h : ∀ node ∈ state.built, IsPlainLeaf node) :
    ∀ node ∈ state.flush.built, IsPlainLeaf node :=
  fun node hmem => (mem_built_flush hmem).elim (h node) id

theorem isPlainLeaf_bump {state : ParseState} (h : ∀ node ∈ state.built, IsPlainLeaf node) :
    ∀ node ∈ state.bump.built, IsPlainLeaf node := by
  intro node hmem
  have hflush := isPlainLeaf_flush h
  cases hrest : state.rest with
  | nil =>
    rw [bump_nil hrest] at hmem
    exact hflush node hmem
  | cons first others =>
    rw [flush_cons hrest] at hflush
    rw [bump_cons hrest] at hmem
    rcases List.mem_cons.mp hmem with rfl | hmem
    · exact ⟨rfl, by simp [Node.leaf, Node.build, Node.kind, Node.label]⟩
    · exact hflush node hmem

theorem isPlainLeaf_bumpMany (count : Nat) {state : ParseState}
    (h : ∀ node ∈ state.built, IsPlainLeaf node) :
    ∀ node ∈ (bumpMany count state).built, IsPlainLeaf node := by
  induction count generalizing state with
  | zero => exact h
  | succ count ih => exact ih (isPlainLeaf_bump h)

theorem reads_bumpMany (count : Nat) {state : ParseState} {lo : Nat} {past : List Token}
    (hparsed : state.Parsed lo past) : Reads lo past state (bumpMany count state) := by
  induction count generalizing state past with
  | zero => exact .refl hparsed
  | succ count ih => exact (reads_bump hparsed).trans fun _ h => ih h

end ParseState

/-- Input that is passed over is covered by an error. -/
theorem Recovery.reads_run (mode : Recovery) {state : ParseState} {lo : Nat} {past : List Token}
    (hparsed : state.Parsed lo past) (hne : state.rest ≠ []) :
    ParseState.Reads lo past state (mode.run state) := by
  refine (ParseState.reads_flush hparsed).trans fun past' hparsed' => ?_
  obtain ⟨here, hcovers, hopened⟩ := hparsed'.opened
  have hinner := ParseState.reads_bumpMany (mode.extent state.flush.rest) hopened
  refine ParseState.reads_close (.inr ⟨rfl, ?_⟩) hcovers hinner
    (hinner.built_ne_nil hopened ?_)
  · exact ParseState.isPlainLeaf_bumpMany _ (by simp)
  · have := run_length_lt mode hne
    simpa [run] using this

/-! ## Combinations -/

/-- Every nonterminal covers the tokens it takes. -/
def Grammar.Covering (grammar : Grammar) (depth : Nat) : Prop :=
  ∀ (rule : Rule) {state last : ParseState} {lo : Nat} {past : List Token},
    state.Parsed lo past → grammar rule depth state = .ok last →
    ParseState.Reads lo past state last

/-- Trivia between tokens has a width. -/
theorem ParseState.Ready.spaced {state : ParseState} {here : Nat} (h : state.Ready here) :
    Spaced state.rest := by
  have hordered := h.ordered
  have hwidth : ∀ lexeme ∈ state.rest, ∀ token ∈ lexeme.leading,
      token.start.byte < token.stop.byte := by
    intro lexeme hlexeme token htoken
    refine (h.fine token ?_).width ((h.lexemes lexeme hlexeme).1 token htoken)
    refine List.mem_append_left _ (List.mem_flatMap.mpr ⟨lexeme, hlexeme, ?_⟩)
    exact List.mem_append_left _ htoken
  unfold ParseState.stream at hordered
  clear h
  generalize state.rest = rest at hordered hwidth
  induction rest generalizing here with
  | nil => exact .nil
  | cons first others ih =>
    rw [List.flatMap_cons, List.append_assoc, List.append_assoc] at hordered
    obtain ⟨mid, hmid⟩ := hordered.drop
    obtain ⟨-, -, hrest⟩ := hmid
    have hchain := ih hrest fun lexeme hmem => hwidth lexeme (List.mem_cons_of_mem _ hmem)
    cases others with
    | nil => exact .singleton first
    | cons second more =>
      refine .cons_cons (fun hleading => ?_) hchain
      cases hfirst : second.leading with
      | nil => exact absurd hfirst hleading
      | cons token trivia =>
        have hsplit : Token.Ordered state.textEnd.byte first.token.stop.byte
            (token :: (trivia ++ (second.token ::
              (more.flatMap (fun lexeme => lexeme.leading ++ [lexeme.token]) ++
                state.trailing)))) := by
          simpa [hfirst] using hrest
        obtain ⟨hstart, -, hafter⟩ := hsplit
        have htoken := hwidth second (by simp) token (by simp [hfirst])
        have hle := hafter.le_start
        simp only at hstart hle
        omega

namespace Twin

variable {grammar grammar' : Grammar} {depth : Nat} {mode : Mode} {known : List Lexeme → Prop}
  {takes : Bool} {pending next : List Closer} {body body' : Production}

/-- A combination covers the tokens it takes. -/
theorem reads (h : Twin grammar grammar' depth mode known takes pending next body body')
    (hadvances : grammar.Advances depth) (hcalls : grammar.Covering depth)
    {state last : ParseState} {lo : Nat} {past : List Token} (hparsed : state.Parsed lo past)
    (hknown : known (Lexeme.bare state.rest)) (hrun : body state = .ok last) :
    ParseState.Reads lo past state last := by
  induction h generalizing state last lo past with
  | skip => exact Except.ok.inj hrun ▸ .refl hparsed
  | fail => simp [Production.fail] at hrun
  | take hkind htakes =>
    have hspaced : Spaced (Lexeme.bare state.rest) := by
      obtain ⟨_, _, ⟨_, _, hready⟩, _⟩ := ParseState.reads_flush hparsed
      simpa using hready.spaced
    have hjoined := htakes.joined hknown hspaced
    obtain ⟨first, more, others, hrest, hcount, htaken⟩ :=
      ParseState.exists_taken (htakes.enough hknown)
    obtain rfl := Except.ok.inj hrun
    rw [htaken] at hjoined
    exact ParseState.reads_bumpJoined hkind.leaf hparsed hrest hcount hjoined
  | string => exact ParseState.reads_string hparsed hrun
  | @choose _ _ _ _ _ select _ hselect _ _ ih =>
    have hchosen : select state.rest state = .ok last := hrun
    rw [← hselect.bare] at hchosen
    exact ih _ hknown hparsed rfl hchosen
  | orElse _ _ _ ih₁ ih₂ =>
    rcases Production.orElse_eq_ok.mp hrun with hfirst | ⟨-, hsecond⟩
    · exact ih₁ hparsed hknown hfirst
    · exact ih₂ hparsed hknown hsecond
  | seq _ _ _ ih₁ ih₂ =>
    obtain ⟨between, hfirst, hsecond⟩ := Production.seq_eq_ok.mp hrun
    exact (ih₁ hparsed hknown hfirst).trans fun _ hparsed' => ih₂ hparsed' trivial hsecond
  | node hkind htwin ih =>
    obtain ⟨inner, hinner, rfl⟩ := Production.node_eq_ok.mp hrun
    refine (ParseState.reads_flush hparsed).trans fun past' hparsed' => ?_
    obtain ⟨here, hcovers, hopened⟩ := hparsed'.opened
    have hreads := ih hopened (by simpa using hknown) hinner
    have hlt := (htwin.advances hadvances (by simpa using hknown) hinner).2 rfl
    exact ParseState.reads_close (.inl hkind) hcovers hreads (hreads.built_ne_nil hopened hlt)
  | inScope _ ih =>
    obtain ⟨inner, hinner, rfl⟩ := Production.inScope_eq_ok.mp hrun
    refine (ParseState.reads_flush hparsed).trans fun past' hparsed' => ?_
    obtain ⟨here, hcovers, hopened⟩ := hparsed'.opened
    have hreads := ih hopened (by simpa using hknown) hinner
    refine hreads.rejoin (fun hrow => ?_) rfl rfl rfl
    have hend : inner.textEnd = state.flush.textEnd := by
      obtain ⟨_, _, _, hend⟩ := hreads
      exact hend
    rw [← hend] at hcovers
    simpa using hcovers.append hrow
  | enclose hkind htwin ih =>
    obtain ⟨inner, hinner, rfl⟩ := Production.enclose_eq_ok.mp hrun
    have hreads := ih hparsed hknown hinner
    have hlt := (htwin.advances hadvances hknown hinner).2 rfl
    have hne := hreads.built_ne_nil hparsed hlt
    obtain ⟨taken, hstream, ⟨hi, hrow, hready⟩, hend⟩ := hreads
    refine ⟨taken, hstream, ⟨hi, ?_, hready.ordered, hready.fine, hready.lexemes,
      hready.trailing⟩, hend⟩
    simpa [ParseState.enclosed] using
      Covers.composite (.inl hkind) (by simpa using hne) hrow (.nil (Nat.le_refl _))
  | whileAhead hlook _ _ ih =>
    exact Production.iterate_whileTurn_keeps (I := ParseState.Reads lo past state)
      (fun hl hbody hreads => hreads.trans fun _ hparsed' =>
        ih hparsed' ((hlook.bare _).trans hl) hbody) hrun (.refl hparsed)
  | braced _ ih =>
    obtain ⟨between, hreads, hlast⟩ := Production.braced_keeps (I := ParseState.Reads lo past state)
      (fun hs hr hi hreads => hreads.trans fun _ hparsed' =>
        ih hparsed' (Lookahead.item_bare.mpr ⟨hr, hs⟩) hi) hrun
      fun _ => ParseState.reads_bump hparsed
    refine hreads.trans fun _ hparsed' => ?_
    rcases hlast with ⟨-, rfl⟩ | ⟨hend, rfl⟩
    · exact ParseState.reads_bump hparsed'
    · exact ParseState.reads_missing hparsed' hend
  | recover hk =>
    obtain rfl := Except.ok.inj hrun
    exact Recovery.reads_run _ hparsed (Lookahead.item_bare.mp (hk _ hknown)).1
  | orRecover hk _ ih =>
    have hne := (Lookahead.item_bare.mp (hk _ hknown)).1
    rcases Production.orRecover_eq_ok.mp hrun with
      ⟨-, rfl⟩ | ⟨next, hnext, hsame, rfl⟩ | ⟨htaken, -⟩
    · exact Recovery.reads_run _ hparsed hne
    · have hpos := List.length_pos_iff.mpr hne
      exact (ih hparsed hknown hnext).trans fun _ hparsed' =>
        Recovery.reads_run _ hparsed' (List.length_pos_iff.mp (hsame ▸ hpos))
    · exact ih hparsed hknown htaken
  | call rule => exact hcalls rule hparsed hrun
  | weaken _ _ hk _ ih => exact ih hparsed (hk _ hknown) hrun
  | enter _ _ ih => exact ih hparsed hknown hrun

end Twin

end Azsl
