/-
Azsl.Proofs.Parse.Ascent — the declarations of a file, one by one.

One step of a file builds one node behind the comments and directives before it, whether a
declaration is parsed or input that is none is passed over. The node starts with the next token
(`Point.declare_built`). Every step takes a token with a width, so the declarations of a text
start at growing bytes (`declarations_ascend`).
-/
import Azsl.Proofs.Parse.Portable
import Azsl.Proofs.Parse.Starts

namespace Azsl

open ParseState

/-! ## The first of some nodes -/

namespace Covers

variable {textEnd : Location} {lo hi : Nat} {nodes : List Node} {tokens : List Token}

/-- Nodes start with the first of their tokens, if that stands before the end of the text. -/
theorem start_of_before (h : Covers textEnd lo hi nodes tokens) {token : Token}
    (htoken : token ∈ tokens.head?) (hbefore : token.start.byte < textEnd.byte) :
    nodes.head?.map (·.start) = some token.start := by
  induction h with
  | nil => cases htoken
  | trivia =>
    obtain rfl := Option.some.inj htoken
    rfl
  | leaf =>
    obtain rfl := Option.some.inj htoken
    rfl
  | string _ hquoted =>
    obtain rfl := Option.some.inj htoken
    rw [List.head?_cons, Option.map_some, Node.start_stringNode hquoted]
  | @composite lo mid hi kind children inner nodes tokens _ hne hinner hrest ih _ =>
    obtain ⟨first, others, rfl⟩ := List.exists_cons_of_ne_nil hne
    cases inner with
    | nil =>
      -- what stands for nothing stands at the end of the text, and all behind it does
      obtain ⟨-, hmid⟩ := hinner.start_of_no_tokens rfl first rfl
      have hle := hrest.le_start_of_head token htoken
      omega
    | cons second more => exact ih htoken
  | missing _ hrest _ =>
    have hle := hrest.le_start_of_head token htoken
    omega

/-- A node over tokens that are not trivia is no comment or directive. -/
theorem isExtra_head (h : Covers textEnd lo hi nodes tokens)
    (hplain : ∀ token ∈ tokens.head?, token.kind.isTrivia = false) :
    ∀ node ∈ nodes.head?, node.kind.isExtra = false := by
  rintro node hmem
  cases h with
  | nil => cases hmem
  | trivia hkind => exact absurd (hplain _ rfl) (by simp [hkind])
  | @leaf _ _ kind _ _ _ _ _ hkind =>
    obtain rfl := Option.some.inj hmem
    show kind.isExtra = false
    simp only [NodeKind.isLeaf, Bool.and_eq_true, Bool.not_eq_true'] at hkind
    exact hkind.2
  | string =>
    obtain rfl := Option.some.inj hmem
    rfl
  | @composite _ _ _ kind _ _ _ _ hkind =>
    obtain rfl := Option.some.inj hmem
    show kind.isExtra = false
    rcases hkind with hkind | ⟨rfl, -⟩
    · simp only [NodeKind.isComposite, Bool.and_eq_true, Bool.not_eq_true'] at hkind
      exact hkind.2
    · rfl
  | missing =>
    obtain rfl := Option.some.inj hmem
    rfl

end Covers

namespace Parse

variable {chars : List Char} {past : List Token} {state : ParseState} {first : Lexeme}
  {others : List Lexeme}

/-! ## One step -/

/-- A step builds one node on its own, and does the same above older nodes. -/
theorem declare_apart (fuel : Nat) (hne : state.rest ≠ []) :
    ∃ node, (declare (.upTo fuel) state.flush.opened).built = [node] ∧
      declare (.upTo fuel) state
        = (declare (.upTo fuel) state.flush.opened).onto state.flush.built := by
  have hrooted := Production.Rooted.topLevelDeclaration (.upTo fuel)
  have hwhole := hrooted.apart state
  cases hrun : Production.topLevelDeclaration (.upTo fuel) 0 state.flush.opened with
  | ok last =>
    obtain ⟨node, hbuilt⟩ := hrooted.single hne hrun
    rw [hrun] at hwhole
    rw [declare_of_ok fuel hrun, declare_of_ok fuel hwhole]
    exact ⟨node, hbuilt, rfl⟩
  | error stop =>
    rw [hrun] at hwhole
    rw [declare, declare, hrun, hwhole]
    simp only [Except.map, Recovery.run, flush_opened_flush]
    exact ⟨_, rfl, rfl⟩

/-- The next token of a point has a width. -/
theorem Point.width (h : Point chars past state) (hrest : state.rest = first :: others) :
    first.token.start.byte < first.token.stop.byte := by
  obtain ⟨row, behind, piece, more, -, -, -, -, hstream⟩ := h.cut hrest
  obtain ⟨here, -, hready⟩ := h.ready
  have hgroup := congrArg (·.1.head?) hready.group_stream
  rw [hstream] at hgroup
  have hwidth := head_width (hgroup.trans (congrArg List.head? (flush_opened_rest hrest)))
  exact hwidth

/-- The next token of a point stands before all others that are left. -/
theorem Point.stop_le (h : Point chars past state) (hrest : state.rest = first :: others)
    {token : Token} (hmem : token ∈ Lexeme.tokens others) :
    first.token.stop.byte ≤ token.start.byte := by
  obtain ⟨here, -, hready⟩ := h.parsed
  have hpairwise := hready.ordered.pairwise.sublist
    (List.filter_sublist (p := fun token : Token => !token.kind.isTrivia))
  rw [hready.filter_stream, hrest] at hpairwise
  exact (List.pairwise_cons.mp hpairwise).1 token hmem

/-- What is taken from a point starts with its next token, and that is no trivia. -/
theorem Point.declare_covers (h : Point chars past state) (hrest : state.rest = first :: others)
    (fuel : Nat) :
    ∃ node lo hi more, (Parse.declare (.upTo fuel) state).built = node :: state.flush.built ∧
      Covers state.textEnd lo hi [node] (first.token :: more) ∧
      first.token.start.byte < state.textEnd.byte ∧ first.token.kind.isTrivia = false := by
  obtain ⟨lo, hparsed, hready⟩ := h.ready
  have hne : state.rest ≠ [] := by simp [hrest]
  have hopened := flush_opened_rest hrest
  have hne' : state.flush.opened.rest ≠ [] := by rw [hopened]; exact List.cons_ne_nil _ _
  obtain ⟨node, hbuilt, hdeclare⟩ := declare_apart fuel hne
  obtain ⟨taken, hstream, ⟨hi, hcovers, hready'⟩, hend⟩ := declare_reads fuel hparsed hne'
  have hlt := declare_length_lt fuel hne'
  have hend' : state.flush.opened.textEnd = state.textEnd := flush_textEnd state
  rw [hbuilt, hend, hend'] at hcovers
  have hlexeme := hready.lexemes { first with leading := [] } (by rw [hopened]; simp)
  have hordered := hready.ordered
  rw [stream_cons hopened, hend'] at hordered
  have hwidth := h.width hrest
  have hstop : first.token.stop.byte ≤ state.textEnd.byte := hordered.2.2.le
  cases taken with
  | nil =>
    have hgroup := hready.group_stream
    rw [hstream, List.nil_append, hready'.group_stream] at hgroup
    have hsame := congrArg (·.1.length) hgroup
    simp only at hsame
    omega
  | cons token more =>
    rw [stream_cons hopened] at hstream
    obtain ⟨rfl, -⟩ := List.cons.inj hstream
    refine ⟨node, lo, hi, more, ?_, hcovers, by omega, hlexeme.2⟩
    rw [hdeclare, onto, hbuilt]
    rfl

/-- A step builds one node behind the trivia before it. The node is no comment or directive and
starts with the next token. -/
theorem Point.declare_built (h : Point chars past state) (hrest : state.rest = first :: others)
    (fuel : Nat) :
    ∃ node, (Parse.declare (.upTo fuel) state).built = node :: state.flush.built ∧
      node.kind.isExtra = false ∧ node.start = first.token.start := by
  obtain ⟨node, lo, hi, more, hbuilt, hcovers, hbefore, hplain⟩ := h.declare_covers hrest fuel
  refine ⟨node, hbuilt, ?_, ?_⟩
  · exact hcovers.isExtra_head (fun token hmem => Option.some.inj hmem ▸ hplain) node rfl
  · exact Option.some.inj (hcovers.start_of_before rfl hbefore)

/-- The next token after a step starts behind the one before it. -/
theorem Point.start_lt (h : Point chars past state) (hrest : state.rest = first :: others)
    (fuel : Nat) :
    ∀ next ∈ (Parse.declare (.upTo fuel) state).rest.head?,
      first.token.start.byte < next.token.start.byte := by
  intro next hnext
  have hne : state.rest ≠ [] := by simp [hrest]
  obtain ⟨taken, htokens, -⟩ := declare_settles fuel hne
  have hlt := declare_length_lt fuel hne
  have hwidth := h.width hrest
  have hmem : next.token ∈ Lexeme.tokens (Parse.declare (.upTo fuel) state).rest :=
    List.mem_map_of_mem (List.mem_of_mem_head? hnext)
  cases taken with
  | nil =>
    have hsame := congrArg List.length htokens
    simp only [Lexeme.tokens, List.nil_append, List.length_map] at hsame
    omega
  | cons token more =>
    rw [hrest] at htokens
    have htail : Lexeme.tokens others = more ++ _ := (List.cons.inj htokens).2
    have hstop := h.stop_le hrest (htail ▸ List.mem_append_right more hmem)
    omega

end Parse

/-! ## All steps -/

/-- The children of the root that are no comments or directives. -/
def SyntaxTree.declarations (tree : SyntaxTree) : List Node :=
  tree.root.children.filter (!·.kind.isExtra)

/-- The declarations built so far, the last one first. -/
def ParseState.declared (state : ParseState) : List Node :=
  state.built.filter (!·.kind.isExtra)

theorem ParseState.isExtra_triviaNode (token : Token) : (triviaNode token).kind.isExtra = true := by
  show NodeKind.isExtra (if token.kind = .comment then _ else _) = true
  split <;> rfl

@[simp] theorem ParseState.declared_flush (state : ParseState) :
    state.flush.declared = state.declared := by
  obtain ⟨trivia, hbuilt⟩ := state.built_flush
  have hnone : (trivia.map triviaNode).filter (!·.kind.isExtra) = [] := by
    rw [List.filter_eq_nil_iff]
    intro node hmem
    obtain ⟨token, -, rfl⟩ := List.mem_map.mp hmem
    simp [isExtra_triviaNode]
  rw [declared, hbuilt, List.filter_append, hnone, List.nil_append, declared]

/-- The declarations built so far start at growing bytes, all before the next token. -/
structure ParseState.Ascends (state : ParseState) : Prop where
  starts : state.declared.Pairwise fun later earlier => earlier.start.byte < later.start.byte
  ahead : ∀ node ∈ state.declared, ∀ next ∈ state.rest.head?,
    node.start.byte < next.token.start.byte

namespace Parse

variable {chars : List Char} {past : List Token} {state : ParseState} {first : Lexeme}
  {others : List Lexeme}

theorem Point.declared_declare (h : Point chars past state) (hrest : state.rest = first :: others)
    (fuel : Nat) :
    ∃ node, (Parse.declare (.upTo fuel) state).declared = node :: state.declared ∧
      node.start = first.token.start := by
  obtain ⟨node, hbuilt, hkind, hstart⟩ := h.declare_built hrest fuel
  refine ⟨node, ?_, hstart⟩
  rw [declared, hbuilt, List.filter_cons_of_pos (by simp [hkind]), ← declared, declared_flush]

theorem Point.ascends_declare (h : Point chars past state) (hne : state.rest ≠ []) (fuel : Nat)
    (hascends : state.Ascends) : (Parse.declare (.upTo fuel) state).Ascends := by
  obtain ⟨first, others, hrest⟩ := List.exists_cons_of_ne_nil hne
  obtain ⟨node, hdeclared, hstart⟩ := h.declared_declare hrest fuel
  have hbefore : ∀ earlier ∈ state.declared, earlier.start.byte < first.token.start.byte :=
    fun earlier hmem => hascends.ahead earlier hmem first (by simp [hrest])
  have hnext := h.start_lt hrest fuel
  constructor
  · rw [hdeclared, List.pairwise_cons, hstart]
    exact ⟨hbefore, hascends.starts⟩
  · rw [hdeclared, List.forall_mem_cons, hstart]
    exact ⟨hnext, fun earlier hmem next hmem' =>
      Nat.lt_trans (hbefore earlier hmem) (hnext next hmem')⟩

theorem Point.ascends_declareAll (h : Point chars past state) (steps fuel : Nat)
    (hascends : state.Ascends) : (Parse.declareAll (.upTo steps) fuel state).Ascends := by
  induction fuel generalizing past state with
  | zero => exact hascends
  | succ fuel ih =>
    rw [Parse.declareAll]
    split
    · exact hascends
    · rename_i hend
      have hne : state.rest ≠ [] := by simpa [ParseState.atEnd] using hend
      obtain ⟨taken, hnext⟩ := h.declare steps hne
      exact ih hnext (h.ascends_declare hne steps hascends)

/-- The declarations of a text start at growing bytes. -/
theorem declarations_ascend (chars : List Char) :
    (parse chars none).declarations.Pairwise fun earlier later =>
      earlier.start.byte < later.start.byte := by
  have hnone : (initial chars).Ascends := ⟨.nil, fun _ hmem => by cases hmem⟩
  have hall := ((Point.initial chars).ascends_declareAll
    (Grammar.fuelFor (initial chars).rest.length) (initial chars).rest.length hnone).starts
  rw [← declared_flush] at hall
  rw [SyntaxTree.declarations, parse_none_root]
  show ((final chars).built.reverse.filter _).Pairwise _
  rw [List.filter_reverse, List.pairwise_reverse]
  exact hall

end Parse

end Azsl
