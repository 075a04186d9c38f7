/-
Azsl.Proofs.Parse.Incremental — parsing with the help of an earlier tree gives the tree of the text.

A copied declaration is the one that parsing would have built: its text stands in the new text,
parsing comes to a point right before it, and from there the same tokens are taken and the same
node is built. So each step of a file does the same with an earlier tree as without, and by
induction so does every parse in a sequence of edits (`revise_matches_fresh`).
-/
import Azsl.Proofs.Parse.Follow
import Azsl.Proofs.Parse.Relocate

namespace Azsl

open ParseState

namespace Parse

/-! ## One declaration -/

variable {chars : List Char} {past : List Token} {state : ParseState}

/-- What is built at a point has the points of the text. -/
theorem Point.relocate_built (h : Point chars past state) {node : Node} (hmem : node ∈ state.built) :
    node.relocate (pointAmong (lineStarts chars)) = node := by
  obtain ⟨here, hcovers, -⟩ := h.parsed
  have hend : state.textEnd.Indexed (pointAmong (lineStarts chars)) := by
    rw [h.textEnd]
    exact indexed_textEnd chars
  have htokens : ∀ token ∈ past, token.Indexed (pointAmong (lineStarts chars)) := by
    intro token htoken
    refine indexed_of_mem_tokenize ?_
    rw [h.stream]
    exact List.mem_append_left _ htoken
  have hall := (hcovers.relocate_eq hend htokens).trans (List.map_id _).symm
  exact List.map_inj_left.mp hall node (List.mem_reverse.mpr hmem)

/-- A declaration that stands at a point is parsed as if it were copied. -/
theorem Standing.declare_eq {node : Node} {before behind : List Char} {row : List Piece}
    (h : Standing chars node before row behind) (hpoint : Point chars past state) {first : Lexeme}
    {others : List Lexeme} (hrest : state.rest = first :: others)
    (hstart : first.token.start.byte = node.start.byte) {tokens : Nat}
    (henough : state.rest.length ≤ tokens) :
    ∃ rest, restBehind? state.rest node.stop.byte = some rest ∧
      declare (.forTokens tokens) state = { state.flush with
        built := node.relocate (pointAmong (lineStarts chars)) :: state.flush.built
        rest := rest } := by
  obtain ⟨hspan, hstop⟩ := h.span
  obtain ⟨chars₀, node₀, past₀, state₀, last₀, left, before₀, htaken, htext, hlift⟩ := h.parsed
  have hpoint' : Point (before ++ Piece.text row ++ behind) past state := h.text ▸ hpoint
  obtain ⟨last, node', hrun, hbuilt, hlift', htrailing, hend, hbehind⟩ :=
    htaken.replay htext hpoint' hrest (hstart.trans hspan) henough
  have hne : state.rest ≠ [] := by simp [hrest]
  have hdeclare : declare (.forTokens tokens) state = last.onto state.flush.built := by
    refine declare_of_ok _ ?_
    rw [(Production.Rooted.topLevelDeclaration _).apart state]
    exact congrArg (Except.map (onto state.flush.built)) hrun
  -- The node that is parsed has the points of the text, the copied one gets them.
  have hnode : node.relocate (pointAmong (lineStarts chars)) = node' := by
    obtain ⟨taken, hnext⟩ := hpoint.declare (Grammar.fuelFor tokens) hne
    have hmem : node' ∈ (declare (.upTo (Grammar.fuelFor tokens)) state).built := by
      rw [← Grammar.forTokens, hdeclare, onto, hbuilt]
      exact List.mem_append_left _ List.mem_cons_self
    have hsame := hnext.relocate_built hmem
    rwa [Node.relocate_eq_of_lift_eq _ (hlift'.symm.trans hlift)] at hsame
  refine ⟨last.rest, by rw [hstop, hbehind], ?_⟩
  simp only [hdeclare, onto, hbuilt, hnode, htrailing, hend, List.singleton_append]

/-! ## All declarations -/

theorem candidate?_mem {earlier : List Node} {byte : Nat} {node : Node}
    (h : candidate? earlier byte = some node) :
    node ∈ earlier ∧ node.start.byte = byte ∧ node.hasChanges = false ∧ node.hasError = false ∧
      node.kind.isSelfDelimiting = true := by
  unfold candidate? at h
  split at h
  · rename_i first rest hdrop
    split at h
    · rename_i hfirst
      obtain rfl := Option.some.inj h
      have hmem : first ∈ earlier :=
        (List.dropWhile_suffix _).mem (hdrop ▸ List.mem_cons_self)
      simpa [hmem] using hfirst
    · cases h
  · cases h

/-- Where there is an untouched declaration, it is copied, and that does the same as parsing. -/
theorem reuse?_eq {tokens : Nat} {progress : Progress} (hpoint : Point chars past progress.state)
    {first : Lexeme} {others : List Lexeme} (hrest : progress.state.rest = first :: others)
    (henough : progress.state.rest.length ≤ tokens)
    (hearlier : ∀ node ∈ progress.earlier, Follows chars node) :
    reuse? (lineStarts chars) progress
      = (candidate? progress.earlier first.token.start.byte).map fun _ =>
        { state := declare (.forTokens tokens) progress.state
          earlier := progress.earlier.dropWhile (·.start.byte < first.token.start.byte)
          stats := { progress.stats with reused := progress.stats.reused + 1 } } := by
  cases hcandidate : candidate? progress.earlier first.token.start.byte with
  | none => simp only [reuse?, hrest, hcandidate, Option.map_none]
  | some node =>
    obtain ⟨hmem, hstart, hchanges, herror, hkind⟩ := candidate?_mem hcandidate
    obtain ⟨before, row, behind, hstanding⟩ := hearlier node hmem hchanges herror hkind
    obtain ⟨rest, hbehind, hdeclare⟩ :=
      hstanding.declare_eq hpoint hrest hstart.symm henough
    rw [hrest] at hbehind
    simp only [reuse?, hrest, hcandidate, hbehind, Option.map_some, hdeclare]

/-- Taking a declaration does the same whether it is copied or parsed. -/
theorem advance_state {tokens : Nat} {progress : Progress}
    (hpoint : Point chars past progress.state) (hne : progress.state.rest ≠ [])
    (henough : progress.state.rest.length ≤ tokens)
    (hearlier : ∀ node ∈ progress.earlier, Follows chars node) :
    (advance (.forTokens tokens) (lineStarts chars) progress).state
        = declare (.forTokens tokens) progress.state ∧
      ∀ node ∈ (advance (.forTokens tokens) (lineStarts chars) progress).earlier,
        Follows chars node := by
  obtain ⟨first, others, hrest⟩ := List.exists_cons_of_ne_nil hne
  rw [advance, reuse?_eq hpoint hrest henough hearlier]
  cases candidate? progress.earlier first.token.start.byte with
  | none => exact ⟨rfl, hearlier⟩
  | some node =>
    refine ⟨rfl, fun other hother => hearlier other ?_⟩
    exact (List.dropWhile_suffix _).mem hother

theorem declarations_state {tokens fuel : Nat} {progress : Progress}
    (hpoint : Point chars past progress.state) (henough : progress.state.rest.length ≤ tokens)
    (hearlier : ∀ node ∈ progress.earlier, Follows chars node) :
    (declarations (.forTokens tokens) (lineStarts chars) fuel progress).state
      = declareAll (.forTokens tokens) fuel progress.state := by
  induction fuel generalizing past progress with
  | zero => rfl
  | succ fuel ih =>
    rw [declarations, declareAll]
    split
    · rfl
    · rename_i hend
      have hne : progress.state.rest ≠ [] := by simpa [ParseState.atEnd] using hend
      obtain ⟨hstate, hearlier'⟩ := advance_state hpoint hne henough hearlier
      obtain ⟨taken, hnext⟩ := hpoint.declare (Grammar.fuelFor tokens) hne
      have hlt := declare_length_lt (Grammar.fuelFor tokens) hne
      rw [← Grammar.forTokens, ← hstate] at hnext hlt
      rw [ih hnext (Nat.le_trans (Nat.le_of_lt hlt) henough) hearlier', hstate]

/-- A tree that follows a text helps to parse it but does not change the outcome. -/
theorem parse_some_root {old : SyntaxTree} (h : ∀ node ∈ old.root.children, Follows chars node) :
    (parse chars (some old)).root = (parse chars none).root := by
  have hstate := @declarations_state chars [] (initial chars).rest.length
    (initial chars).rest.length ⟨initial chars, earlierDeclarations (some old), ⟨0, 0⟩⟩
    (.initial chars) (Nat.le_refl _) fun node hmem => h node (List.mem_of_mem_filter hmem)
  rw [parse_none_root, final, ← hstate]
  rfl

end Parse

/-! ## Edits and parses in turn -/

/-- A text with a tree. -/
structure Revision where
  text : SourceText
  tree : SyntaxTree

namespace Revision

/-- A text with the tree it has on its own. -/
def fresh (chars : List Char) : Revision :=
  ⟨.ofChars chars, parse chars none⟩

/-- Replace a range of the text, and let the tree keep up. -/
def replace (revision : Revision) (range : Range) (chars : List Char) : Revision :=
  let (text, edit) := revision.text.applyChange range chars
  ⟨text, revision.tree.edit edit⟩

/-- Replace ranges of the text one after the other. -/
def replaceAll (revision : Revision) (changes : List (Range × List Char)) : Revision :=
  changes.foldl (fun revision change => revision.replace change.1 change.2) revision

/-- Parse the text with the help of the tree. -/
def reparse (revision : Revision) : Revision :=
  { revision with tree := parse revision.text.chars (some revision.tree) }

/-- Go through steps, each some changes and a parse. -/
def revise (revision : Revision) (steps : List (List (Range × List Char))) : Revision :=
  steps.foldl (fun revision changes => (revision.replaceAll changes).reparse) revision

/-- The index of lines is that of the text, and the tree follows the text. -/
structure Kept (revision : Revision) : Prop where
  indexed : revision.text = .ofChars revision.text.chars
  follows : ∀ node ∈ revision.tree.root.children, Parse.Follows revision.text.chars node

theorem Kept.replace {revision : Revision} (h : revision.Kept) (range : Range)
    (chars : List Char) : (revision.replace range chars).Kept := by
  obtain ⟨left, middle, right, hchars, hchange⟩ :=
    SourceText.applyChange_eq revision.text.chars range chars
  rw [← h.indexed] at hchange
  have hedit : (revision.text.applyChange range chars).2.Describes left middle chars := by
    rw [hchange]
    constructor <;> simp only [Location.byte_advance] <;> exact Nat.zero_add _
  have htext : (revision.replace range chars).text = .ofChars (left ++ chars ++ right) := by
    simp only [Revision.replace, hchange]
  constructor
  · rw [htext]
    rfl
  · intro node hmem
    rw [htext]
    simp only [Revision.replace, SyntaxTree.edit, Node.children_mapLabels, List.mem_map] at hmem
    obtain ⟨old, hold, rfl⟩ := hmem
    exact (hchars ▸ h.follows old hold).edit hedit

theorem Kept.replaceAll {revision : Revision} (h : revision.Kept)
    (changes : List (Range × List Char)) : (revision.replaceAll changes).Kept := by
  induction changes generalizing revision with
  | nil => exact h
  | cons change rest ih => exact ih (h.replace change.1 change.2)

theorem Kept.reparse_root {revision : Revision} (h : revision.Kept) :
    revision.reparse.tree.root = (parse revision.text.chars none).root :=
  Parse.parse_some_root h.follows

theorem kept_of_root {revision : Revision} (hindexed : revision.text = .ofChars revision.text.chars)
    (hroot : revision.tree.root = (parse revision.text.chars none).root) : revision.Kept where
  indexed := hindexed
  follows _ hmem := Parse.follows_of_mem_parse (hroot ▸ hmem)

/-- After each step the tree is the one that the text has on its own. -/
theorem root_revise {revision : Revision} (hindexed : revision.text = .ofChars revision.text.chars)
    (hroot : revision.tree.root = (parse revision.text.chars none).root)
    (steps : List (List (Range × List Char))) :
    (revision.revise steps).tree.root
      = (parse (revision.revise steps).text.chars none).root := by
  induction steps generalizing revision with
  | nil => exact hroot
  | cons changes rest ih =>
    have hkept := (kept_of_root hindexed hroot).replaceAll changes
    exact ih hkept.indexed hkept.reparse_root

/-- However a text is edited and parsed in turn, its tree has the same outline as one that is
parsed from scratch. -/
theorem revise_matches_fresh (chars : List Char) (steps : List (List (Range × List Char))) :
    ((fresh chars).revise steps).tree.root.outline
      = (parse ((fresh chars).revise steps).text.chars none).root.outline :=
  congrArg Node.outline (root_revise rfl rfl steps)

end Revision

end Azsl
