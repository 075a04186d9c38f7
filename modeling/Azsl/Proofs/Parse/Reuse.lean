/-
Azsl.Proofs.Parse.Reuse — which declarations are copied from an earlier tree.

The declarations of an earlier tree are looked through once, from the first to the last. That
finds every untouched one that starts where a declaration of the new text does: whatever edits do
to the declarations before it, these start before it (`Label.start_lt_edit`), so none of them
hides it and it is passed only when its start is. Every step counts what it takes as copied or as
parsed, so the statistics tell which declarations are copied (`reparse_reuses`).
-/
import Azsl.Proofs.Parse.Ascent
import Azsl.Proofs.Parse.Tracking

namespace Azsl

open ParseState

/-! ## Untouched declarations -/

/-- The node may be copied: no edit touched it, there is no error in it, and it closes itself. -/
def Node.Untouched (node : Node) : Prop :=
  node.hasChanges = false ∧ node.hasError = false ∧ node.kind.isSelfDelimiting = true

instance (node : Node) : Decidable node.Untouched :=
  inferInstanceAs (Decidable (_ ∧ _ ∧ _))

/-- Some untouched node starts at a byte. -/
def UntouchedAt (nodes : List Node) (byte : Nat) : Prop :=
  ∃ node ∈ nodes, node.Untouched ∧ node.start.byte = byte

instance (nodes : List Node) (byte : Nat) : Decidable (UntouchedAt nodes byte) :=
  inferInstanceAs (Decidable (∃ node ∈ nodes, node.Untouched ∧ node.start.byte = byte))

/-- Whatever comes before a node that no edit touched starts before it. -/
def Parted (nodes : List Node) : Prop :=
  nodes.Pairwise fun first second => second.hasChanges = false →
    first.start.byte < second.start.byte

theorem NodeKind.isExtra_of_isSelfDelimiting {kind : NodeKind} (h : kind.isSelfDelimiting = true) :
    kind.isExtra = false := by
  cases kind <;> first | rfl | cases h

/-- Where the untouched nodes start. -/
def untouchedStarts (nodes : List Node) : List Nat :=
  (nodes.filter (·.Untouched)).map (·.start.byte)

theorem mem_untouchedStarts {nodes : List Node} {byte : Nat} :
    byte ∈ untouchedStarts nodes ↔ UntouchedAt nodes byte := by
  simp [untouchedStarts, UntouchedAt, and_assoc]

/-- No two untouched nodes start at the same byte. -/
theorem Parted.nodup {nodes : List Node} (h : Parted nodes) : (untouchedStarts nodes).Nodup := by
  rw [untouchedStarts, List.Nodup, List.pairwise_map]
  refine (List.Pairwise.filter _ h).imp_of_mem fun {first second} _ hsecond hlt => ?_
  have huntouched : second.Untouched := by simpa using List.of_mem_filter hsecond
  exact Nat.ne_of_lt (hlt huntouched.1)

/-- Without repetitions, two lists have as many members of the first in the second as the other
way round. -/
theorem countP_mem_comm {α : Type} [DecidableEq α] {first second : List α} (h : first.Nodup)
    (h' : second.Nodup) : first.countP (· ∈ second) = second.countP (· ∈ first) := by
  have hperm : (first.filter (· ∈ second)).Perm (second.filter (· ∈ first)) := by
    rw [List.perm_ext_iff_of_nodup (h.filter _) (h'.filter _)]
    intro member
    simp [and_comm]
  rw [List.countP_eq_length_filter, List.countP_eq_length_filter, hperm.length_eq]

/-! ## The cursor -/

namespace Parse

/-- The first node that does not start too early is the untouched one at a byte, if there is
one. -/
theorem isSome_candidate?_iff {earlier : List Node} (h : Parted earlier) (byte : Nat) :
    (candidate? earlier byte).isSome = true ↔ UntouchedAt earlier byte := by
  constructor
  · intro hsome
    obtain ⟨node, hnode⟩ := Option.isSome_iff_exists.mp hsome
    obtain ⟨hmem, hstart, huntouched⟩ := candidate?_mem hnode
    exact ⟨node, hmem, huntouched, hstart⟩
  · rintro ⟨node, hmem, ⟨hchanges, herror, hkind⟩, rfl⟩
    obtain ⟨before, behind, rfl⟩ := List.append_of_mem hmem
    have hbefore : ∀ other ∈ before, other.start.byte < node.start.byte := fun other hother =>
      (List.pairwise_append.mp h).2.2 other hother node List.mem_cons_self hchanges
    have hdrop : (before ++ node :: behind).dropWhile (·.start.byte < node.start.byte)
        = node :: behind := by
      rw [List.dropWhile_append_of_pos (by simpa using hbefore),
        List.dropWhile_cons_of_neg (by simp)]
    simp [candidate?, hdrop, hchanges, herror, hkind]

/-- Nodes that start too early do not matter. -/
theorem untouchedAt_append {passed left : List Node} {byte : Nat}
    (h : ∀ node ∈ passed, node.start.byte < byte) :
    UntouchedAt (passed ++ left) byte ↔ UntouchedAt left byte := by
  constructor
  · rintro ⟨node, hmem, huntouched, rfl⟩
    rcases List.mem_append.mp hmem with hmem | hmem
    · exact absurd (h node hmem) (Nat.lt_irrefl _)
    · exact ⟨node, hmem, huntouched, rfl⟩
  · rintro ⟨node, hmem, hnode⟩
    exact ⟨node, List.mem_append_right _ hmem, hnode⟩

/-! ## Counting -/

/-- The statistics tell of every declaration built so far whether it was copied, and only
declarations that start before the next token have been passed. -/
structure Tallies (old : List Node) (progress : Progress) : Prop where
  total : progress.stats.reused + progress.stats.reparsed = progress.state.declared.length
  reused : progress.stats.reused
    = progress.state.declared.countP fun node => UntouchedAt old node.start.byte
  passed : ∃ passed, old = passed ++ progress.earlier ∧
    ∀ node ∈ passed, ∀ next ∈ progress.state.rest.head?,
      node.start.byte < next.token.start.byte

variable {chars : List Char} {past : List Token} {old : List Node} {progress : Progress}

theorem Tallies.earlier (h : Tallies old progress) (hparted : Parted old) :
    Parted progress.earlier ∧ progress.earlier ⊆ old := by
  obtain ⟨passed, rfl, -⟩ := h.passed
  exact ⟨(List.pairwise_append.mp hparted).2.1, List.subset_append_right _ _⟩

/-- What has been passed does not hide anything from the next token. -/
theorem Tallies.isSome_candidate?_iff (h : Tallies old progress) (hparted : Parted old)
    {first : Lexeme} (hfirst : first ∈ progress.state.rest.head?) :
    (candidate? progress.earlier first.token.start.byte).isSome = true
      ↔ UntouchedAt old first.token.start.byte := by
  obtain ⟨passed, hold, hpassed⟩ := h.passed
  rw [Parse.isSome_candidate?_iff (h.earlier hparted).1, hold,
    untouchedAt_append fun node hmem => hpassed node hmem first hfirst]

/-- A step copies a declaration exactly if an untouched one starts at the next token. -/
theorem Tallies.advance {tokens : Nat} (h : Tallies old progress) (hparted : Parted old)
    (hfollows : ∀ node ∈ old, Follows chars node) (hpoint : Point chars past progress.state)
    (hne : progress.state.rest ≠ []) (henough : progress.state.rest.length ≤ tokens) :
    Tallies old (advance (.forTokens tokens) (lineStarts chars) progress) := by
  obtain ⟨first, others, hrest⟩ := List.exists_cons_of_ne_nil hne
  have hfirst : first ∈ progress.state.rest.head? := by simp [hrest]
  have hmet := h.isSome_candidate?_iff hparted hfirst
  have hsubset := (h.earlier hparted).2
  obtain ⟨passed, hold, hpassed⟩ := h.passed
  have hbefore : ∀ node ∈ passed, node.start.byte < first.token.start.byte :=
    fun node hmem => hpassed node hmem first hfirst
  obtain ⟨node, hdeclared, hstart⟩ :=
    hpoint.declared_declare hrest (Grammar.fuelFor tokens)
  have hnext := hpoint.start_lt hrest (Grammar.fuelFor tokens)
  rw [← Grammar.forTokens] at hdeclared hnext
  have htotal := h.total
  have hlater : ∀ other : Node, other.start.byte < first.token.start.byte →
      ∀ next ∈ (declare (.forTokens tokens) progress.state).rest.head?,
        other.start.byte < next.token.start.byte :=
    fun other hlt next hmem => Nat.lt_trans hlt (hnext next hmem)
  rw [Parse.advance, reuse?_eq hpoint hrest henough fun node hmem => hfollows node (hsubset hmem)]
  cases hcandidate : candidate? progress.earlier first.token.start.byte with
  | none =>
    have hnone : ¬ UntouchedAt old node.start.byte := by
      rw [hstart, ← hmet, hcandidate]
      simp
    rw [Option.map_none]
    refine ⟨?_, ?_, passed, hold, fun other hmem => hlater other (hbefore other hmem)⟩
    · simp only [hdeclared, List.length_cons]
      omega
    · simp only [hdeclared, List.countP_cons, hnone, h.reused]
      simp
  | some copied =>
    have hsome : UntouchedAt old node.start.byte := by
      rw [hstart, ← hmet, hcandidate]
      rfl
    rw [Option.map_some]
    refine ⟨?_, ?_, passed ++ progress.earlier.takeWhile (·.start.byte < first.token.start.byte),
      ?_, fun other hmem => hlater other ?_⟩
    · simp only [hdeclared, List.length_cons]
      omega
    · simp only [hdeclared, List.countP_cons, hsome, h.reused]
      simp
    · rw [List.append_assoc, List.takeWhile_append_dropWhile, hold]
    · rcases List.mem_append.mp hmem with hmem | hmem
      · exact hbefore other hmem
      · simpa using List.mem_takeWhile_imp hmem

theorem Tallies.declarations {tokens : Nat} (h : Tallies old progress) (hparted : Parted old)
    (hfollows : ∀ node ∈ old, Follows chars node) (hpoint : Point chars past progress.state)
    (henough : progress.state.rest.length ≤ tokens) (fuel : Nat) :
    Tallies old (declarations (.forTokens tokens) (lineStarts chars) fuel progress) := by
  induction fuel generalizing past progress with
  | zero => exact h
  | succ fuel ih =>
    rw [Parse.declarations]
    split
    · exact h
    · rename_i hend
      have hne : progress.state.rest ≠ [] := by simpa [ParseState.atEnd] using hend
      obtain ⟨-, hsubset⟩ := h.earlier hparted
      obtain ⟨hstate, -⟩ :=
        advance_state hpoint hne henough fun node hmem => hfollows node (hsubset hmem)
      obtain ⟨taken, hnext⟩ := hpoint.declare (Grammar.fuelFor tokens) hne
      have hlt := declare_length_lt (Grammar.fuelFor tokens) hne
      rw [← Grammar.forTokens, ← hstate] at hnext hlt
      exact ih (h.advance hparted hfollows hpoint hne henough) hnext
        (Nat.le_trans (Nat.le_of_lt hlt) henough)

end Parse

/-! ## Trees -/

theorem SyntaxTree.untouchedStarts_declarations (tree : SyntaxTree) :
    untouchedStarts tree.declarations = untouchedStarts tree.root.children := by
  rw [untouchedStarts, untouchedStarts, declarations, List.filter_filter]
  refine congrArg (List.map _) (List.filter_congr fun node _ => ?_)
  by_cases huntouched : node.Untouched
  · simp [huntouched, NodeKind.isExtra_of_isSelfDelimiting huntouched.2.2]
  · simp [huntouched]

/-- What the statistics of a tree say about the earlier tree it was parsed with. -/
structure SyntaxTree.Reuses (old new : SyntaxTree) : Prop where
  /-- Every declaration was either copied or parsed. -/
  total : new.stats.reused + new.stats.reparsed = new.declarations.length
  /-- Those copied are those that start where an untouched child of the earlier root does. -/
  reused : new.stats.reused
    = new.declarations.countP fun node => UntouchedAt old.root.children node.start.byte
  /-- No untouched child of the earlier root that starts where a declaration does is left out. -/
  complete : new.stats.reused
    = old.root.children.countP fun earlier => earlier.Untouched ∧
      ∃ node ∈ new.declarations, node.start.byte = earlier.start.byte

namespace Parse

theorem declarations_finish (progress : Progress) :
    (finish progress).declarations = progress.state.declared.reverse := by
  show progress.state.flush.built.reverse.filter _ = _
  rw [List.filter_reverse, ← declared, declared_flush]

theorem Tallies.finish {old : List Node} {progress : Progress} (h : Tallies old progress) :
    (finish progress).stats.reused + (finish progress).stats.reparsed
        = (finish progress).declarations.length ∧
      (finish progress).stats.reused
        = (finish progress).declarations.countP fun node => UntouchedAt old node.start.byte := by
  rw [declarations_finish, List.length_reverse, List.countP_reverse]
  exact ⟨h.total, h.reused⟩

/-- Where a tree follows a text and its untouched declarations can be told apart by their starts,
parsing the text with its help copies all it can. -/
theorem parse_reuses {chars : List Char} {old : SyntaxTree}
    (hfollows : ∀ node ∈ old.root.children, Follows chars node)
    (hparted : Parted old.declarations) : old.Reuses (parse chars (some old)) := by
  have hinitial : Tallies old.declarations
      ⟨initial chars, earlierDeclarations (some old), ⟨0, 0⟩⟩ :=
    ⟨rfl, rfl, [], rfl, fun _ hmem => by cases hmem⟩
  have hall := hinitial.declarations hparted
    (fun node hmem => hfollows node (List.mem_of_mem_filter hmem)) (.initial chars)
    (Nat.le_refl _) (initial chars).rest.length
  generalize hnew : parse chars (some old) = new
  obtain ⟨htotal, hreused⟩ : new.stats.reused + new.stats.reparsed = new.declarations.length ∧
      new.stats.reused
        = new.declarations.countP fun node => UntouchedAt old.declarations node.start.byte :=
    hnew ▸ hall.finish
  have hstarts : (new.declarations.map (·.start.byte)).Nodup := by
    rw [SyntaxTree.declarations, ← hnew, parse_some_root hfollows, List.Nodup, List.pairwise_map]
    exact (declarations_ascend chars).imp Nat.ne_of_lt
  have huntouched := old.untouchedStarts_declarations
  have hnodup := huntouched ▸ hparted.nodup
  simp only [← mem_untouchedStarts, huntouched] at hreused
  refine ⟨htotal, by simpa only [← mem_untouchedStarts] using hreused, hreused.trans ?_⟩
  have hcomm := countP_mem_comm hstarts hnodup
  rw [List.countP_map] at hcomm
  refine hcomm.trans ?_
  rw [untouchedStarts, List.countP_map, List.countP_filter]
  refine List.countP_congr fun node _ => ?_
  simp [and_comm]

end Parse

/-! ## Edits -/

/-- A start behind another stays behind it, unless an edit meets the label that it belongs to. -/
theorem Label.start_lt_edit {edit : Edit} (hedit : edit.Forward) {first second : Label}
    (hfirst : first.start.byte ≤ first.stop.byte) (hsecond : second.start.byte ≤ second.stop.byte)
    (hlt : first.start.byte < second.start.byte)
    (hchanges : (second.edit edit).hasChanges = false) :
    (first.edit edit).start.byte < (second.edit edit).start.byte := by
  obtain ⟨hold, hnew⟩ := hedit
  obtain ⟨-, hapart⟩ := apart_of_hasChanges_edit hchanges
  rw [edit_eq ⟨hold, hnew⟩ hfirst, edit_eq ⟨hold, hnew⟩ hsecond]
  simp only [Edit.moveStart_byte, Edit.shiftByte]
  split_ifs <;> omega

namespace Revision

/-- The children of the root end behind their starts, and untouched declarations can be told
apart by their starts. -/
structure Orderly (revision : Revision) : Prop where
  width : ∀ node ∈ revision.tree.root.children, node.start.byte ≤ node.stop.byte
  parted : Parted revision.tree.declarations

variable {revision : Revision}

/-- An edit keeps what is left of the order of declarations. -/
theorem Orderly.replace (h : revision.Orderly)
    (hindexed : revision.text = .ofChars revision.text.chars) (change : Range × List Char) :
    (revision.replace change.1 change.2).Orderly := by
  obtain ⟨left, middle, right, -, -, hreplace⟩ := exists_replacing hindexed change
  have hforward := Edit.forward_replacing left middle change.2
  have hchildren : (revision.replace change.1 change.2).tree.root.children
      = revision.tree.root.children.map
        (Node.mapLabels (Label.edit (.replacing left middle change.2))) := by
    rw [hreplace]
    exact Node.children_mapLabels _ _
  constructor
  · rw [hchildren, List.forall_mem_map]
    intro node hmem
    have hwidth := h.width node hmem
    rw [Node.start_edit hforward hwidth, Node.stop_edit hforward hwidth]
    exact Edit.moveStart_le_moveStop hforward hwidth
  · rw [SyntaxTree.declarations, hchildren, List.filter_map]
    simp only [Function.comp_def, Node.kind_edit]
    rw [Parted, List.pairwise_map]
    refine h.parted.imp_of_mem fun {first second} hfirst hsecond hlt hchanges => ?_
    have hfirst := h.width first (List.mem_of_mem_filter hfirst)
    have hsecond := h.width second (List.mem_of_mem_filter hsecond)
    rw [Node.hasChanges, Node.label_mapLabels] at hchanges
    have hbefore := hlt (Label.apart_of_hasChanges_edit hchanges).1
    rw [Node.start, Node.label_mapLabels, Node.start, Node.label_mapLabels]
    exact Label.start_lt_edit hforward hfirst hsecond hbefore hchanges

theorem Orderly.replaceAll (h : revision.Orderly) (hkept : revision.Kept)
    (changes : List (Range × List Char)) : (revision.replaceAll changes).Orderly := by
  induction changes generalizing revision with
  | nil => exact h
  | cons change rest ih =>
    exact ih (h.replace hkept.indexed change) (hkept.replace change.1 change.2)

/-- The declarations of a text that was just parsed are in order. -/
theorem orderly_of_root (hroot : revision.tree.root = (parse revision.text.chars none).root) :
    revision.Orderly := by
  constructor
  · intro node hmem
    rw [hroot] at hmem
    exact (Parse.formed_of_mem (List.mem_flatMap.mpr ⟨node, hmem, node.self_mem_descendants⟩)).width
  · have hascend := Parse.declarations_ascend revision.text.chars
    rw [SyntaxTree.declarations, ← hroot] at hascend
    refine List.Pairwise.imp ?_ hascend
    intro first second hlt _
    exact hlt

/-- The index of lines stays that of the text. -/
theorem indexed_replaceAll (h : revision.text = .ofChars revision.text.chars)
    (changes : List (Range × List Char)) :
    (revision.replaceAll changes).text = .ofChars (revision.replaceAll changes).text.chars := by
  induction changes generalizing revision with
  | nil => exact h
  | cons change rest ih =>
    obtain ⟨left, middle, right, -, -, hreplace⟩ := exists_replacing h change
    refine @ih (revision.replace change.1 change.2) ?_
    rw [hreplace]
    rfl

theorem indexed_revise (h : revision.text = .ofChars revision.text.chars)
    (steps : List (List (Range × List Char))) :
    (revision.revise steps).text = .ofChars (revision.revise steps).text.chars := by
  induction steps generalizing revision with
  | nil => exact h
  | cons changes rest ih =>
    have hnext := indexed_replaceAll h changes
    exact @ih (revision.replaceAll changes).reparse hnext

/-- However a text is edited and parsed in turn, and edited again, parsing it with the help of
its tree copies every untouched declaration that it can, and the statistics tell how many these
are. -/
theorem reparse_reuses (chars : List Char) (steps : List (List (Range × List Char)))
    (changes : List (Range × List Char)) :
    (((fresh chars).revise steps).replaceAll changes).tree.Reuses
      (((fresh chars).revise steps).replaceAll changes).reparse.tree := by
  have hindexed : ((fresh chars).revise steps).text
      = .ofChars ((fresh chars).revise steps).text.chars := indexed_revise rfl steps
  have hroot : ((fresh chars).revise steps).tree.root
      = (parse ((fresh chars).revise steps).text.chars none).root := root_revise rfl rfl steps
  have hkept := kept_of_root hindexed hroot
  exact Parse.parse_reuses (hkept.replaceAll changes).follows
    ((orderly_of_root hroot).replaceAll hkept changes).parted

/-- The first of two variables gets a longer name: the second is copied from where it was. -/
example : ((fresh "int a;\nint b;\n".toList).replace ⟨⟨0, 4⟩, ⟨0, 5⟩⟩
    "abc".toList).reparse.tree.stats = ⟨1, 1⟩ := by decide +kernel

end Revision

end Azsl
