/-
Azsl.Proofs.Parse.Empty — where nodes without a width stand.

A node is empty only if it stands for a token that is missing at the end of the text, or for the
path of an include, which may be empty. Neither is where a name starts.
-/
import Azsl.Proofs.Parse.Leaves
import Azsl.Proofs.Parse.Places

namespace Azsl

/-- A node starts at the end of a text, or where one of some tokens does that is empty. -/
def Node.Vacant (textEnd : Location) (tokens : List Token) (node : Node) : Prop :=
  node.start = textEnd ∨
    ∃ token ∈ tokens, token.start = node.start ∧ token.stop.byte ≤ token.start.byte

theorem Node.Vacant.mono {textEnd : Location} {tokens more : List Token} {node : Node}
    (h : node.Vacant textEnd tokens) (hsubset : tokens ⊆ more) : node.Vacant textEnd more :=
  h.imp_right fun ⟨token, htoken, hsame⟩ => ⟨token, hsubset htoken, hsame⟩

/-- Empty nodes among those that cover tokens start where there is nothing to stand for. -/
theorem Covers.vacant {textEnd : Location} {lo hi : Nat} {nodes : List Node} {tokens : List Token}
    (h : Covers textEnd lo hi nodes tokens)
    (hordered : tokens.Pairwise fun first second => first.stop.byte ≤ second.stop.byte)
    {node : Node} (hmem : node ∈ nodes.flatMap Node.descendants)
    (hempty : node.stop.byte ≤ node.start.byte) : node.Vacant textEnd tokens := by
  induction h generalizing node with
  | nil => cases hmem
  | trivia _ _ _ _ ih =>
    rcases Node.mem_descendants_cons.mp hmem with rfl | hmem | hmem
    · exact .inr ⟨_, List.mem_cons_self, rfl, hempty⟩
    · cases hmem
    · exact (ih hordered.of_cons hmem hempty).mono (List.subset_cons_self _ _)
  | @leaf _ _ _ first more last _ tokens _ _ hlast _ _ _ ih =>
    rcases Node.mem_descendants_cons.mp hmem with rfl | hmem | hmem
    · refine .inr ⟨first, List.mem_cons_self, rfl, Nat.le_trans ?_ hempty⟩
      rcases List.mem_cons.mp (List.mem_of_getLast? hlast) with rfl | hmore
      · exact Nat.le_refl _
      · exact List.rel_of_pairwise_cons hordered (List.mem_append_left _ hmore)
    · cases hmem
    · have htokens := (List.pairwise_append.mp hordered).2.1
      exact (ih htokens hmem hempty).mono (List.subset_append_right _ _)
  | @string _ _ token _ _ _ hquoted _ _ ih =>
    rcases Node.mem_descendants_cons.mp hmem with rfl | hmem | hmem
    · refine .inr ⟨token, List.mem_cons_self, (Node.start_stringNode hquoted).symm, ?_⟩
      rwa [Node.start_stringNode hquoted, Node.stop_stringNode hquoted] at hempty
    · obtain ⟨part, hpart, hbelow⟩ := List.mem_flatMap.mp hmem
      obtain ⟨-, hleaf, hwidth⟩ := Node.leaf_of_mem_stringParts hquoted hpart
      rw [Node.descendants_eq, hleaf] at hbelow
      obtain rfl := List.mem_singleton.mp hbelow
      omega
    · exact (ih hordered.of_cons hmem hempty).mono (List.subset_cons_self _ _)
  | @composite lo mid hi kind children inner nodes tokens hkind hne hinner hrest ih₁ ih₂ =>
    obtain ⟨hordered₁, hordered₂, -⟩ := List.pairwise_append.mp hordered
    rcases Node.mem_descendants_cons.mp hmem with rfl | hmem' | hmem'
    · -- the first child is empty, too
      obtain ⟨first, others, rfl⟩ := List.exists_cons_of_ne_nil hne
      have hformed := (Covers.composite hkind hne hinner hrest).formed _ hmem
      have hself : ∀ child ∈ first :: others, child ∈ (first :: others).flatMap Node.descendants :=
        fun child hchild => List.mem_flatMap.mpr
          ⟨child, hchild, child.self_mem_descendants⟩
      have hmember : first ∈ first :: others := List.mem_cons_self
      obtain ⟨-, hstop⟩ := hformed.around
        (fun child hchild => (hinner.formed child (hself child hchild)).width) hmember
      have hstart : (Node.ofChildren kind (first :: others)).start = first.start :=
        start_ofChildren rfl
      rw [hstart] at hempty
      have hfirst := ih₁ hordered₁ (hself first hmember) (Nat.le_trans hstop hempty)
      rw [Node.Vacant, hstart]
      exact hfirst.mono (List.subset_append_left _ _)
    · exact (ih₁ hordered₁ hmem' hempty).mono (List.subset_append_left _ _)
    · exact (ih₂ hordered₂ hmem' hempty).mono (List.subset_append_right _ _)
  | missing _ _ ih =>
    rcases Node.mem_descendants_cons.mp hmem with rfl | hmem | hmem
    · exact .inl rfl
    · cases hmem
    · exact ih hordered hmem hempty

namespace Parse

variable {chars : List Char}

/-- No token ends before the one in front of it. -/
theorem pairwise_stop (chars : List Char) :
    (tokenize chars).Pairwise fun first second => first.stop.byte ≤ second.stop.byte :=
  (tokenize_ordered chars).pairwise.imp_of_mem fun _ hmem hle =>
    Nat.le_trans hle (le_of_mem_tokenize hmem)

/-- An empty node stands at the end of the text, or where the path of an include is empty. -/
theorem empty_of_mem {node : Node}
    (hmem : node ∈ (parse chars none).root.children.flatMap Node.descendants)
    (hempty : node.stop.byte ≤ node.start.byte) :
    node.start = Location.origin.advance chars ∨ ∃ path ∈ tokenize chars,
      path.kind = .includePath ∧ path.start = node.start ∧ path.stop.byte ≤ path.start.byte := by
  obtain ⟨hi, -, hcovers⟩ := root_covers chars
  refine (hcovers.vacant (pairwise_stop chars) hmem hempty).imp_right ?_
  rintro ⟨token, htoken, hstart, hwidth⟩
  refine ⟨token, htoken, ?_, hstart, hwidth⟩
  by_contra hpath
  exact absurd (width_of_mem_tokenize htoken hpath) (by omega)

/-- Nothing empty stands where a name starts. -/
theorem start_ne_of_empty {node name : Node}
    (hmem : node ∈ (parse chars none).root.children.flatMap Node.descendants)
    (hempty : node.stop.byte ≤ node.start.byte) (hname : name.Solid (tokenize chars))
    (hkind : name.kind = .identifier) (hbound : name.stop.byte ≤ byteLength chars) :
    node.start.byte ≠ name.start.byte := by
  intro hsame
  rcases empty_of_mem hmem hempty with hend | ⟨path, hpath, hinclude, hstart, hwidth⟩
  · have hlt := hname.width (.inr hkind)
    rw [hend, Location.byte_advance] at hsame
    simp only [Location.origin] at hsame
    omega
  · obtain ⟨word, hword, hkind', hstart'⟩ := hname.word hkind
    refine start_ne_of_path hpath hinclude hwidth hword hkind' ?_
    rw [hstart, hstart', hsame]

end Parse

end Azsl
