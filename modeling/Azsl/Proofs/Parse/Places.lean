/-
Azsl.Proofs.Parse.Places — where the nodes of a fresh tree stand.

Nodes start and end where tokens do, or along the text of a string. So the ends of every node are
places of the text it was parsed from: they lie between two characters and have the points that
the text gives them. A node spans its children, and these stand in the order of the text.
-/
import Azsl.Proofs.Parse.Starts
import Azsl.Proofs.Text.Shift

namespace Azsl

/-! ## Places along tokens -/

/-- All along a token, locations have a property. -/
structure Token.Along (P : Location → Prop) (token : Token) : Prop where
  stop : token.stop = token.start.advance token.text.toList
  along : ∀ left right, token.text.toList = left ++ right → P (token.start.advance left)

/-- Both ends of a node have a property. -/
def Node.Ends (P : Location → Prop) (node : Node) : Prop :=
  P node.start ∧ P node.stop

namespace Node

variable {P : Location → Prop}

theorem ends_escapes {here : Location} {chars : List Char}
    (h : ∀ left right, chars = left ++ right → P (here.advance left)) :
    ∀ node ∈ Production.escapes here chars, node.Ends P := by
  fun_induction Production.escapes here chars with
  | case1 here c rest stop ih =>
    intro node hmem
    rcases List.mem_cons.mp hmem with rfl | hmem
    · exact ⟨h [] _ rfl, h ['\\', c] rest rfl⟩
    · refine ih (fun left right hrest => ?_) node hmem
      exact h ('\\' :: c :: left) right (by rw [hrest]; rfl)
  | case2 here c rest _ ih =>
    refine ih fun left right hrest => ?_
    exact h (c :: left) right (by rw [hrest]; rfl)
  | case3 => exact fun node hmem => absurd hmem (by simp)

theorem ends_stringParts {token : Token} (h : token.Along P) (hquoted : token.Quoted) :
    ∀ part ∈ Production.stringParts token, part.Ends P := by
  obtain ⟨inner, htext⟩ := hquoted.1
  have hinside : ∀ left right, inner = left ++ right →
      P ((token.start.step '"').advance left) := by
    intro left right hinner
    exact h.along ('"' :: left) (right ++ ['"']) (by rw [htext, hinner]; simp)
  have hstart : P token.start := h.along [] _ rfl
  have hstop : P token.stop := h.stop ▸ h.along _ [] (List.append_nil _).symm
  intro part hmem
  rw [stringParts_eq htext, List.cons_append, List.mem_cons, List.mem_append,
    List.mem_singleton] at hmem
  rcases hmem with rfl | hmem | rfl
  · exact ⟨hstart, hinside [] inner rfl⟩
  · exact ends_escapes hinside part hmem
  · exact ⟨hinside inner [] (by simp), hstop⟩

/-- A node over children starts with the first and ends with the last of them. -/
theorem ends_ofChildren (kind : NodeKind) {children : List Node} (hne : children ≠ [])
    (h : ∀ child ∈ children, child.Ends P) : (ofChildren kind children).Ends P := by
  constructor
  · show P ((children.head?.map start).getD .origin)
    rw [List.head?_eq_some_head hne]
    exact (h _ (List.head_mem hne)).1
  · show P ((children.getLast?.map stop).getD .origin)
    rw [List.getLast?_eq_some_getLast hne]
    exact (h _ (List.getLast_mem hne)).2

end Node

/-- What covers tokens starts and ends along them, or where the text ends. -/
theorem Covers.ends {P : Location → Prop} {textEnd : Location} {lo hi : Nat} {nodes : List Node}
    {tokens : List Token} (h : Covers textEnd lo hi nodes tokens) (hend : P textEnd)
    (htokens : ∀ token ∈ tokens, token.Along P) :
    ∀ node ∈ nodes.flatMap Node.descendants, node.Ends P := by
  have hcons : ∀ {first : Node} {rest : List Node}, first.Ends P →
      (∀ node ∈ first.children.flatMap Node.descendants, node.Ends P) →
      (∀ node ∈ rest.flatMap Node.descendants, node.Ends P) →
      ∀ node ∈ (first :: rest).flatMap Node.descendants, node.Ends P := by
    intro first rest hfirst hbelow hrest node hmem
    rcases Node.mem_descendants_cons.mp hmem with rfl | hmem | hmem
    · exact hfirst
    · exact hbelow node hmem
    · exact hrest node hmem
  have hstart : ∀ {token : Token}, token.Along P → P token.start :=
    fun htoken => htoken.along [] _ rfl
  have hstop : ∀ {token : Token}, token.Along P → P token.stop :=
    fun htoken => htoken.stop ▸ htoken.along _ [] (List.append_nil _).symm
  induction h with
  | nil => simp
  | trivia _ _ _ _ ih =>
    have htoken := htokens _ List.mem_cons_self
    exact hcons ⟨hstart htoken, hstop htoken⟩ (fun _ hmem => by cases hmem)
      (ih fun token hmem => htokens token (List.mem_cons_of_mem _ hmem))
  | leaf _ _ hlast _ _ _ ih =>
    have hfirst := htokens _ (List.mem_append_left _ List.mem_cons_self)
    have hlast := htokens _ (List.mem_append_left _ (List.mem_of_getLast? hlast))
    exact hcons ⟨hstart hfirst, hstop hlast⟩ (fun _ hmem => by cases hmem)
      (ih fun token hmem => htokens token (List.mem_append_right _ hmem))
  | @string lo hi token nodes tokens _ hquoted _ _ ih =>
    have hparts := Node.ends_stringParts (htokens token List.mem_cons_self) hquoted
    refine hcons (Node.ends_ofChildren _ (by simp [Production.stringParts]) hparts) ?_
      (ih fun token hmem => htokens token (List.mem_cons_of_mem _ hmem))
    intro below hmem
    obtain ⟨part, hpart, hbelow⟩ := List.mem_flatMap.mp hmem
    obtain ⟨hleaf, -⟩ := @Node.formed_of_mem_stringParts textEnd _ hquoted _ hpart
    rw [Node.descendants_eq, hleaf] at hbelow
    obtain rfl := List.mem_singleton.mp hbelow
    exact hparts _ hpart
  | @composite lo mid hi kind children inner nodes tokens _ hne _ _ ih₁ ih₂ =>
    have hinner := ih₁ fun token hmem => htokens token (List.mem_append_left _ hmem)
    refine hcons (Node.ends_ofChildren kind hne fun child hchild => ?_) hinner
      (ih₂ fun token hmem => htokens token (List.mem_append_right _ hmem))
    exact hinner child (List.mem_flatMap.mpr ⟨child, hchild, child.self_mem_descendants⟩)
  | missing _ _ ih => exact hcons ⟨hend, hend⟩ (fun _ hmem => by cases hmem) (ih htokens)

/-- The tokens of a text stand along it. -/
theorem along_of_mem_tokenize {chars : List Char} {token : Token} (h : token ∈ tokenize chars) :
    token.Along (Location.Stands chars) := by
  obtain ⟨before, behind, htext, hstart⟩ := exists_text_of_mem_place h
  rw [text_pieces] at htext
  refine ⟨(indexed_of_mem_tokenize h).stop, fun left right hsplit => ?_⟩
  refine ⟨before ++ left, right ++ behind, ?_, ?_⟩
  · rw [htext, hsplit]
    simp
  · rw [hstart, Location.advance_append]

/-! ## Spans -/

namespace Node

/-- A node ends behind its start and within `size` bytes, spans its children, and these stand in
the order of their starts. -/
structure Spans (size : Nat) (node : Node) : Prop where
  width : node.start.byte ≤ node.stop.byte
  bound : node.stop.byte ≤ size
  around : ∀ child ∈ node.children,
    node.start.byte ≤ child.start.byte ∧ child.stop.byte ≤ node.stop.byte
  ordered : node.children.Pairwise fun first second => first.start.byte ≤ second.start.byte

/-- The children of a node of a tree are below its root. -/
theorem mem_below_of_child {root node child : Node} (h : node ∈ root.descendants)
    (hchild : child ∈ node.children) : child ∈ root.children.flatMap descendants := by
  induction root using Node.rec_children with
  | step root ih =>
    rw [descendants_eq] at h
    rcases List.mem_cons.mp h with rfl | h
    · exact List.mem_flatMap.mpr ⟨child, hchild, child.self_mem_descendants⟩
    · obtain ⟨between, hbetween, hnode⟩ := List.mem_flatMap.mp h
      exact List.mem_flatMap.mpr
        ⟨between, hbetween, mem_descendants_of_below (ih between hbetween hnode)⟩

theorem child_mem_descendants {root node child : Node} (h : node ∈ root.descendants)
    (hchild : child ∈ node.children) : child ∈ root.descendants :=
  mem_descendants_of_below (mem_below_of_child h hchild)

/-- A node that reaches from its first child to its last spans all of them. -/
theorem Formed.around {textEnd : Location} {node child : Node} (h : node.Formed textEnd)
    (hwidth : ∀ child ∈ node.children, child.start.byte ≤ child.stop.byte)
    (hmem : child ∈ node.children) :
    node.start.byte ≤ child.start.byte ∧ child.stop.byte ≤ node.stop.byte := by
  obtain ⟨left, right, hsplit⟩ := List.append_of_mem hmem
  have hordered : node.children.Pairwise _ := h.ordered
  rw [hsplit] at hordered
  constructor
  · cases left with
    | nil => rw [h.first child (by rw [hsplit]; rfl)]
    | cons first left =>
      have hfirst := h.first first (by rw [hsplit]; rfl)
      have hle := hwidth first (by rw [hsplit]; exact List.mem_cons_self)
      have hbefore : first.stop.byte ≤ child.start.byte :=
        List.rel_of_pairwise_cons hordered (by simp)
      rw [hfirst]
      omega
  · rcases List.eq_nil_or_concat right with rfl | ⟨right, last, rfl⟩
    · rw [h.last child (by rw [hsplit]; exact List.getLast?_concat)]
    · rw [List.concat_eq_append] at hsplit hordered
      have hlast := h.last last (by rw [hsplit, ← List.cons_append, ← List.append_assoc,
        List.getLast?_concat])
      have hle := hwidth last (by rw [hsplit]; simp)
      have hbehind : child.stop.byte ≤ last.start.byte := by
        have hcons := (List.pairwise_append.mp hordered).2.1
        exact List.rel_of_pairwise_cons hcons (by simp)
      rw [hlast]
      omega

end Node

namespace Parse

variable {chars : List Char} {node : Node}

theorem formed_of_mem
    (h : node ∈ (parse chars none).root.children.flatMap Node.descendants) :
    node.Formed (Location.origin.advance chars) := by
  obtain ⟨hi, -, hcovers⟩ := root_covers chars
  exact hcovers.formed node h

/-- The ends of every node are places of the text. -/
theorem ends_of_mem (h : node ∈ (parse chars none).root.descendants) :
    node.Ends (Location.Stands chars) := by
  have hend : (Location.origin.advance chars).Stands chars := ⟨chars, [], by simp, rfl⟩
  rw [Node.descendants_eq] at h
  rcases List.mem_cons.mp h with rfl | h
  · rw [Node.Ends, root_start, root_stop]
    exact ⟨⟨[], chars, rfl, rfl⟩, hend⟩
  · obtain ⟨hi, -, hcovers⟩ := root_covers chars
    exact hcovers.ends hend (fun token htoken => along_of_mem_tokenize htoken) node h

/-- Every node of a fresh tree spans its children, in order. -/
theorem spans_of_mem (h : node ∈ (parse chars none).root.descendants) :
    node.Spans (byteLength chars) := by
  have hwidths : ∀ child ∈ node.children, child.start.byte ≤ child.stop.byte :=
    fun child hchild => (formed_of_mem (Node.mem_below_of_child h hchild)).width
  have hstarts : node.Ordered →
      node.children.Pairwise fun first second => first.start.byte ≤ second.start.byte :=
    fun hordered => hordered.imp_of_mem fun {first second} hfirst _ hle =>
      Nat.le_trans (hwidths first hfirst) hle
  have hbound := (ends_of_mem h).2.byte_le
  rw [Node.descendants_eq] at h
  rcases List.mem_cons.mp h with rfl | hbelow
  · have hzero : (parse chars none).root.start.byte = 0 := by rw [root_start]; rfl
    have hsize : (parse chars none).root.stop.byte = byteLength chars := by
      rw [root_stop, Location.byte_origin]
    refine ⟨by omega, hbound, fun child hchild => ⟨by omega, ?_⟩, hstarts (root_ordered chars)⟩
    rw [hsize]
    exact (ends_of_mem (Node.child_mem_descendants (Node.self_mem_descendants _) hchild)).2.byte_le
  · have hformed := formed_of_mem hbelow
    exact ⟨hformed.width, hbound, fun child hchild => hformed.around hwidths hchild,
      hstarts hformed.ordered⟩

end Parse

end Azsl
