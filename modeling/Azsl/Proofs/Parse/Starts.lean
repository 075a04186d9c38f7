/-
Azsl.Proofs.Parse.Starts — where the nodes of a text start, as editors count.

Every node of a text has the points that the index of lines gives. A node may stand for nothing
but a token that is missing at the end of the text. A node with an identifier below it stands for
tokens, and starts where one of them does, so its editor position leads back to its start.
-/
import Azsl.Proofs.Parse.Relocate
import Azsl.Proofs.Text.Positions
import Azsl.Proofs.Token.Start

namespace Azsl

/-- The first of some trees, what is below it, or what is in the others. -/
theorem Node.mem_descendants_cons {node first : Node} {rest : List Node} :
    node ∈ (first :: rest).flatMap descendants ↔ node = first ∨
      node ∈ first.children.flatMap descendants ∨ node ∈ rest.flatMap descendants := by
  rw [List.flatMap_cons, descendants_eq, List.mem_append, List.mem_cons, or_assoc]

/-- The children of a node cover some of these tokens, and the node starts with the first. -/
def Node.StandsOver (textEnd : Location) (tokens : List Token) (node : Node) : Prop :=
  ∃ lo hi inner, Covers textEnd lo hi node.children inner ∧ inner ⊆ tokens ∧
    ∀ first ∈ node.children.head?, node.start = first.start

theorem Node.StandsOver.mono {textEnd : Location} {tokens more : List Token} {node : Node}
    (h : node.StandsOver textEnd tokens) (hsubset : tokens ⊆ more) :
    node.StandsOver textEnd more := by
  obtain ⟨lo, hi, inner, hcovers, hinner, hstart⟩ := h
  exact ⟨lo, hi, inner, hcovers, List.Subset.trans hinner hsubset, hstart⟩

namespace Covers

variable {textEnd : Location} {lo hi : Nat} {nodes : List Node} {tokens : List Token}

/-! ## Nodes without tokens -/

theorem start_ofChildren {kind : NodeKind} {children : List Node} {first : Node}
    (h : children.head? = some first) : (Node.ofChildren kind children).start = first.start := by
  show ((children.head?.map Node.start).getD .origin) = _
  rw [h]
  rfl

/-- Nodes without tokens stand at the end of the text. -/
theorem start_of_no_tokens (h : Covers textEnd lo hi nodes tokens) (hnil : tokens = []) :
    ∀ node ∈ nodes.head?, node.start = textEnd ∧ textEnd.byte ≤ hi := by
  induction h with
  | nil => intro node hmem; cases hmem
  | trivia => cases hnil
  | leaf => cases hnil
  | string => cases hnil
  | @composite lo mid hi kind children inner nodes tokens _ hne _ hrest ih₁ _ =>
    rintro node hmem
    obtain rfl := Option.some.inj hmem
    obtain ⟨first, others, rfl⟩ := List.exists_cons_of_ne_nil hne
    obtain ⟨hstart, hle⟩ := ih₁ (List.append_eq_nil_iff.mp hnil).1 first rfl
    exact ⟨(start_ofChildren rfl).trans hstart, Nat.le_trans hle hrest.le⟩
  | missing _ hrest _ =>
    rintro node hmem
    obtain rfl := Option.some.inj hmem
    exact ⟨rfl, hrest.le⟩

/-- Nothing has a name without tokens. -/
theorem kind_ne_identifier_of_no_tokens (h : Covers textEnd lo hi nodes tokens)
    (hnil : tokens = []) : ∀ node ∈ nodes.flatMap Node.descendants, node.kind ≠ .identifier := by
  induction h with
  | nil => simp
  | trivia => cases hnil
  | leaf => cases hnil
  | string => cases hnil
  | @composite lo mid hi kind children inner nodes tokens hkind _ _ _ ih₁ ih₂ =>
    obtain ⟨hinner, htokens⟩ := List.append_eq_nil_iff.mp hnil
    intro node hmem
    rcases Node.mem_descendants_cons.mp hmem with rfl | hmem | hmem
    · rintro (rfl : kind = _)
      rcases hkind with hkind | ⟨hkind, -⟩ <;> cases hkind
    · exact ih₁ hinner node hmem
    · exact ih₂ htokens node hmem
  | missing _ _ ih =>
    intro node hmem
    rcases Node.mem_descendants_cons.mp hmem with rfl | hmem | hmem
    · intro hkind
      cases hkind
    · cases hmem
    · exact ih hnil node hmem

/-! ## Nodes with tokens -/

theorem le_start_of_head (h : Covers textEnd lo hi nodes tokens) :
    ∀ token ∈ tokens.head?, lo ≤ token.start.byte := by
  induction h with
  | nil => intro token hmem; cases hmem
  | trivia _ hlo => rintro token hmem; exact Option.some.inj hmem ▸ hlo
  | leaf _ _ _ hlo => rintro token hmem; exact Option.some.inj hmem ▸ hlo
  | string _ _ hlo => rintro token hmem; exact Option.some.inj hmem ▸ hlo
  | @composite lo mid hi kind children inner nodes tokens _ _ hinner _ ih₁ ih₂ =>
    intro token hmem
    cases inner with
    | nil => exact Nat.le_trans hinner.le (ih₂ token hmem)
    | cons first more => exact ih₁ token hmem
  | missing hlo _ ih =>
    intro token hmem
    exact Nat.le_trans hlo (ih token hmem)

/-- Tokens behind the end of the text stand at its end. -/
theorem exists_at_end (h : Covers textEnd lo hi nodes tokens) (hlo : textEnd.byte ≤ lo)
    (hbound : ∀ token ∈ tokens, token.start.byte ≤ textEnd.byte) (hne : tokens ≠ []) :
    ∃ token ∈ tokens, token.start.byte = textEnd.byte := by
  obtain ⟨token, more, rfl⟩ := List.exists_cons_of_ne_nil hne
  have hle := h.le_start_of_head token rfl
  exact ⟨token, List.mem_cons_self,
    Nat.le_antisymm (hbound token List.mem_cons_self) (Nat.le_trans hlo hle)⟩

/-- Nodes that cover some tokens start where one of the tokens does. -/
theorem exists_start (h : Covers textEnd lo hi nodes tokens)
    (hbound : ∀ token ∈ tokens, token.start.byte ≤ textEnd.byte) (hne : tokens ≠ []) :
    ∀ node ∈ nodes.head?, ∃ token ∈ tokens, node.start.byte = token.start.byte := by
  induction h with
  | nil => exact absurd rfl hne
  | trivia =>
    rintro node hmem
    obtain rfl := Option.some.inj hmem
    exact ⟨_, List.mem_cons_self, rfl⟩
  | leaf =>
    rintro node hmem
    obtain rfl := Option.some.inj hmem
    exact ⟨_, List.mem_cons_self, rfl⟩
  | string _ hquoted =>
    rintro node hmem
    obtain rfl := Option.some.inj hmem
    exact ⟨_, List.mem_cons_self, congrArg Location.byte (Node.start_stringNode hquoted)⟩
  | @composite lo mid hi kind children inner nodes tokens _ hchildren hinner hrest ih₁ _ =>
    rintro node hmem
    obtain rfl := Option.some.inj hmem
    obtain ⟨first, others, rfl⟩ := List.exists_cons_of_ne_nil hchildren
    have hstart : (Node.ofChildren kind (first :: others)).start = first.start :=
      start_ofChildren rfl
    rw [hstart]
    by_cases hnil : inner = []
    · -- the first node stands for nothing, so the tokens behind it are at the end of the text
      subst hnil
      obtain ⟨hfirst, hle⟩ := hinner.start_of_no_tokens rfl first rfl
      obtain ⟨token, htoken, hend⟩ := hrest.exists_at_end hle hbound hne
      exact ⟨token, htoken, by rw [hfirst, hend]⟩
    · obtain ⟨token, htoken, hsame⟩ :=
        ih₁ (fun token hmem => hbound token (List.mem_append_left _ hmem)) hnil first rfl
      exact ⟨token, List.mem_append_left _ htoken, hsame⟩
  | missing _ hrest _ =>
    rintro node hmem
    obtain rfl := Option.some.inj hmem
    obtain ⟨token, htoken, hend⟩ := hrest.exists_at_end (Nat.le_refl _) hbound hne
    exact ⟨token, htoken, hend.symm⟩

/-- Every node with children stands over tokens, unless it is a string. -/
theorem standsOver (h : Covers textEnd lo hi nodes tokens) {node : Node}
    (hmem : node ∈ nodes.flatMap Node.descendants) (hchildren : node.children ≠ [])
    (hkind : node.kind ≠ .stringLiteral) : node.StandsOver textEnd tokens := by
  induction h with
  | nil => cases hmem
  | trivia _ _ _ _ ih =>
    rcases Node.mem_descendants_cons.mp hmem with rfl | hmem | hmem
    · exact absurd rfl hchildren
    · cases hmem
    · exact (ih hmem).mono (List.subset_cons_self _ _)
  | leaf _ _ _ _ _ _ ih =>
    rcases Node.mem_descendants_cons.mp hmem with rfl | hmem | hmem
    · exact absurd rfl hchildren
    · cases hmem
    · exact (ih hmem).mono (List.subset_append_right _ _)
  | string _ hquoted _ _ ih =>
    rcases Node.mem_descendants_cons.mp hmem with rfl | hmem | hmem
    · exact absurd rfl hkind
    · obtain ⟨part, hpart, hbelow⟩ := List.mem_flatMap.mp hmem
      obtain ⟨hleaf, -⟩ : part.children = [] ∧ part.Formed textEnd :=
        Node.formed_of_mem_stringParts hquoted hpart
      rw [Node.descendants_eq, hleaf] at hbelow
      obtain rfl := List.mem_singleton.mp hbelow
      exact absurd hleaf hchildren
    · exact (ih hmem).mono (List.subset_cons_self _ _)
  | composite _ _ hinner _ ih₁ ih₂ =>
    rcases Node.mem_descendants_cons.mp hmem with rfl | hmem | hmem
    · exact ⟨_, _, _, hinner, List.subset_append_left _ _, fun _ hfirst => start_ofChildren hfirst⟩
    · exact (ih₁ hmem).mono (List.subset_append_left _ _)
    · exact (ih₂ hmem).mono (List.subset_append_right _ _)
  | missing _ _ ih =>
    rcases Node.mem_descendants_cons.mp hmem with rfl | hmem | hmem
    · exact absurd rfl hchildren
    · cases hmem
    · exact ih hmem

/-- A node with an identifier below it starts where a token does. -/
theorem exists_start_of_identifier (h : Covers textEnd lo hi nodes tokens)
    (hbound : ∀ token ∈ tokens, token.start.byte ≤ textEnd.byte) {node identifier : Node}
    (hmem : node ∈ nodes.flatMap Node.descendants) (hkind : node.kind ≠ .stringLiteral)
    (hbelow : identifier ∈ node.children.flatMap Node.descendants)
    (hidentifier : identifier.kind = .identifier) :
    ∃ token ∈ tokens, node.start.byte = token.start.byte := by
  have hchildren : node.children ≠ [] := by
    intro hnil
    simp [hnil] at hbelow
  obtain ⟨lo', hi', inner, hinner, hsubset, hstart⟩ := h.standsOver hmem hchildren hkind
  have hne : inner ≠ [] := fun hnil =>
    hinner.kind_ne_identifier_of_no_tokens hnil identifier hbelow hidentifier
  obtain ⟨first, others, hcons⟩ := List.exists_cons_of_ne_nil hchildren
  have hfirst : first ∈ node.children.head? := by simp [hcons]
  obtain ⟨token, htoken, hsame⟩ :=
    hinner.exists_start (fun token hmem => hbound token (hsubset hmem)) hne first hfirst
  exact ⟨token, hsubset htoken, by rw [hstart first hfirst, hsame]⟩

end Covers

/-! ## Trees of texts -/

theorem Node.relocate_eq_of_mem_descendants {point : Nat → Point} {node below : Node}
    (h : node.relocate point = node) (hmem : below ∈ node.descendants) :
    below.relocate point = below := by
  induction node using Node.rec_children with
  | step node ih =>
    rw [descendants_eq] at hmem
    rcases List.mem_cons.mp hmem with rfl | hmem
    · exact h
    · obtain ⟨child, hchild, hbelow⟩ := List.mem_flatMap.mp hmem
      obtain ⟨label, children⟩ := node
      rw [relocate_mk, build, mk.injEq] at h
      have hall := h.2.trans (List.map_id children).symm
      exact ih child hchild (List.map_inj_left.mp hall child hchild) hbelow

namespace Parse

variable {chars : List Char} {node : Node}

/-- The nodes of a text have the points of its index of lines. -/
theorem indexed_of_mem (hmem : node ∈ (parse chars none).root.children.flatMap Node.descendants) :
    node.start.Indexed (pointAmong (lineStarts chars)) ∧
      node.stop.Indexed (pointAmong (lineStarts chars)) := by
  obtain ⟨hi, -, hcovers⟩ := root_covers chars
  have hall := (hcovers.relocate_eq (indexed_textEnd chars)
    fun token hmem => indexed_of_mem_tokenize hmem).trans (List.map_id _).symm
  obtain ⟨child, hchild, hbelow⟩ := List.mem_flatMap.mp hmem
  exact Node.indexed_of_relocate_eq
    (Node.relocate_eq_of_mem_descendants (List.map_inj_left.mp hall child hchild) hbelow)

/-- The position of a node with an identifier below it leads back to the start of the node. -/
theorem offsetAt_positionAt_start {identifier : Node}
    (hmem : node ∈ (parse chars none).root.children.flatMap Node.descendants)
    (hkind : node.kind ≠ .stringLiteral)
    (hbelow : identifier ∈ node.children.flatMap Node.descendants)
    (hidentifier : identifier.kind = .identifier) :
    (SourceText.ofChars chars).offsetAt
      ((SourceText.ofChars chars).positionAt node.start.byte) = node.start.byte := by
  obtain ⟨hi, -, hcovers⟩ := root_covers chars
  have hbound : ∀ token ∈ tokenize chars,
      token.start.byte ≤ (Location.origin.advance chars).byte := by
    intro token htoken
    obtain ⟨left, right, rfl, hstart, -⟩ := exists_start_of_mem_tokenize htoken
    rw [hstart, Location.advance_append]
    exact Location.byte_le_advance _ _
  obtain ⟨token, htoken, hsame⟩ :=
    hcovers.exists_start_of_identifier hbound hmem hkind hbelow hidentifier
  obtain ⟨left, right, rfl, hstart, hend⟩ := exists_start_of_mem_tokenize htoken
  have hbyte : token.start.byte = byteLength left := by
    rw [hstart, Location.byte_advance]
    exact Nat.zero_add _
  rw [hsame, hbyte]
  refine SourceText.offsetAt_positionAt (hend.imp ?_ ?_)
  · rintro ⟨c, hhead, hblank⟩
    refine ⟨c, hhead, ?_⟩
    rintro rfl
    exact absurd hblank (by decide)
  · rintro ⟨c, hlast, hblank⟩
    refine ⟨c, hlast, ?_⟩
    rintro rfl
    exact absurd hblank (by decide)

end Parse

end Azsl
