/-
Azsl.Proofs.Parse.Relocate — a node that is built anew at its own place stays as it is.

A copied declaration is built anew at its bytes, with points looked up in the index of lines.
What it becomes depends only on its bytes and kinds. A node that was parsed from a text already
has the points that the index of this text gives, so building it anew changes nothing.
-/
import Azsl.Proofs.Parse.Portable
import Azsl.Proofs.Text.Lines

namespace Azsl

/-! ## What a relocated node depends on -/

namespace Node

theorem relocateAll_eq_map (point : Nat → Point) (nodes : List Node) :
    relocateAll point nodes = nodes.map (relocate point) := by
  induction nodes with
  | nil => rfl
  | cons first rest ih => rw [relocateAll, ih, List.map_cons]

theorem relocate_mk (point : Nat → Point) (label : Label) (children : List Node) :
    (mk label children).relocate point
      = build label.kind ⟨label.start.byte, point label.start.byte⟩
        ⟨label.stop.byte, point label.stop.byte⟩ (children.map (relocate point)) := by
  rw [relocate, relocateAll_eq_map]

mutual

/-- Relocating a node depends on its bytes, not on its points. -/
theorem relocate_eq_of_lift_eq {d : Nat} (point : Nat → Point) :
    ∀ {a b : Node}, a.lift d = b.lift d → a.relocate point = b.relocate point
  | mk label children, mk label' children', h => by
    rw [lift_mk, lift_mk, mk.injEq] at h
    obtain ⟨hlabel, hchildren⟩ := h
    simp only [Label.lift, Label.mk.injEq, Location.lift_eq_iff, Nat.add_right_cancel_iff]
      at hlabel
    obtain ⟨hkind, hstart, hstop, -, -⟩ := hlabel
    rw [relocate_mk, relocate_mk, hkind, hstart, hstop,
      relocateAll_eq_of_lift_eq point hchildren]

/-- Relocating nodes in a row depends on their bytes, not on their points. -/
theorem relocateAll_eq_of_lift_eq {d : Nat} (point : Nat → Point) :
    ∀ {nodes others : List Node}, nodes.map (lift d) = others.map (lift d) →
      nodes.map (relocate point) = others.map (relocate point)
  | [], [], _ => rfl
  | first :: rest, first' :: rest', h => by
    obtain ⟨hfirst, hrest⟩ := List.cons.inj h
    rw [List.map_cons, List.map_cons, relocate_eq_of_lift_eq point hfirst,
      relocateAll_eq_of_lift_eq point hrest]

end

end Node

/-! ## Points of an index -/

/-- The point of a location is the one that an index gives for its byte. -/
def Location.Indexed (point : Nat → Point) (here : Location) : Prop :=
  here.point = point here.byte

/-- All along a token, locations have the points that an index gives. -/
structure Token.Indexed (point : Nat → Point) (token : Token) : Prop where
  stop : token.stop = token.start.advance token.text.toList
  along : ∀ left right, token.text.toList = left ++ right →
    (token.start.advance left).Indexed point

namespace Token.Indexed

variable {point : Nat → Point} {token : Token}

theorem indexed_start (h : token.Indexed point) : token.start.Indexed point :=
  h.along [] _ rfl

theorem indexed_stop (h : token.Indexed point) : token.stop.Indexed point := by
  rw [h.stop]
  exact h.along _ [] (List.append_nil _).symm

end Token.Indexed

/-- A token stands for a stretch of the text it was cut from. -/
theorem exists_text_of_mem_place {here : Location} {leads : Bool} {row : List Piece}
    {token : Token} (h : token ∈ place here leads row) :
    ∃ before behind, Piece.text row = before ++ token.text.toList ++ behind ∧
      token.start = here.advance before := by
  induction row generalizing here leads with
  | nil => cases h
  | cons piece rest ih =>
    have hrest : token ∈ place (here.advance piece.chars) (leadsAfter leads piece.chars) rest →
        ∃ before behind, Piece.text (piece :: rest) = before ++ token.text.toList ++ behind ∧
          token.start = here.advance before := by
      intro hmem
      obtain ⟨before, behind, htext, hstart⟩ := ih hmem
      refine ⟨piece.chars ++ before, behind, ?_, ?_⟩
      · rw [Piece.text_cons, htext]
        simp
      · rw [hstart, Location.advance_append]
    cases hkind : piece.kind with
    | none =>
      rw [place_cons_none hkind] at h
      exact hrest h
    | some kind =>
      rw [place_cons_some hkind] at h
      rcases List.mem_cons.mp h with rfl | h
      · exact ⟨[], Piece.text rest, by simp [Piece.text_cons], rfl⟩
      · exact hrest h

/-- The tokens of a text have the points of its index of lines. -/
theorem indexed_of_mem_tokenize {chars : List Char} {token : Token} (h : token ∈ tokenize chars) :
    token.Indexed (pointAmong (lineStarts chars)) := by
  obtain ⟨before, behind, htext, hstart⟩ := exists_text_of_mem_place h
  rw [text_pieces] at htext
  constructor
  · obtain ⟨piece, -, -, hchars, hstop⟩ := exists_piece_of_mem_place h
    rw [hchars, hstop]
  · intro left right hsplit
    have hbyte : (Location.origin.advance (before ++ left)).byte = byteLength (before ++ left) := by
      rw [Location.byte_advance]
      exact Nat.zero_add _
    rw [hstart, ← Location.advance_append, Location.Indexed, hbyte, htext, hsplit]
    simp only [List.append_assoc]
    rw [← List.append_assoc before left, pointAmong_lineStarts]

theorem indexed_textEnd (chars : List Char) :
    (Location.origin.advance chars).Indexed (pointAmong (lineStarts chars)) := by
  have hpoint := pointAmong_lineStarts chars []
  rw [List.append_nil] at hpoint
  rw [Location.Indexed, Location.byte_advance, ← hpoint]
  simp [Location.origin]

/-! ## Nodes with the points of an index -/

namespace Node

variable {point : Nat → Point}

theorem relocate_build {kind : NodeKind} {start stop : Location} {children : List Node}
    (hstart : start.Indexed point) (hstop : stop.Indexed point)
    (hchildren : children.map (relocate point) = children) :
    (build kind start stop children).relocate point = build kind start stop children := by
  rw [Location.Indexed] at hstart hstop
  rw [build, relocate_mk, hchildren]
  simp only [← hstart, ← hstop]
  rfl

theorem relocate_leaf {kind : NodeKind} {start stop : Location}
    (hstart : start.Indexed point) (hstop : stop.Indexed point) :
    (leaf kind start stop).relocate point = leaf kind start stop :=
  relocate_build hstart hstop rfl

theorem indexed_of_relocate_eq {node : Node} (h : node.relocate point = node) :
    node.start.Indexed point ∧ node.stop.Indexed point := by
  obtain ⟨label, children⟩ := node
  rw [relocate_mk, build, mk.injEq] at h
  have hstart := congrArg (fun label : Label => label.start.point) h.1.symm
  have hstop := congrArg (fun label : Label => label.stop.point) h.1.symm
  exact ⟨hstart, hstop⟩

theorem relocate_ofChildren (kind : NodeKind) {children : List Node} (hne : children ≠ [])
    (hchildren : children.map (relocate point) = children) :
    (ofChildren kind children).relocate point = ofChildren kind children := by
  have hchild : ∀ child ∈ children, child.start.Indexed point ∧ child.stop.Indexed point := by
    intro child hmem
    have hall := hchildren.trans (List.map_id children).symm
    exact indexed_of_relocate_eq (List.map_inj_left.mp hall child hmem)
  refine relocate_build ?_ ?_ hchildren
  · rw [List.head?_eq_some_head hne]
    exact (hchild _ (List.head_mem hne)).1
  · rw [List.getLast?_eq_some_getLast hne]
    exact (hchild _ (List.getLast_mem hne)).2

theorem relocate_escapes {here : Location} {chars : List Char}
    (h : ∀ left right, chars = left ++ right → (here.advance left).Indexed point) :
    (Production.escapes here chars).map (relocate point) = Production.escapes here chars := by
  fun_induction Production.escapes here chars with
  | case1 here c rest stop ih =>
    have hstart : here.Indexed point := h [] _ rfl
    have hstop : stop.Indexed point := h ['\\', c] rest rfl
    rw [List.map_cons, relocate_leaf hstart hstop, ih]
    intro left right hrest
    exact h ('\\' :: c :: left) right (by rw [hrest]; rfl)
  | case2 here c rest _ ih =>
    refine ih fun left right hrest => ?_
    exact h (c :: left) right (by rw [hrest]; rfl)
  | case3 => rfl

theorem relocate_stringParts {token : Token} (h : token.Indexed point) (hquoted : token.Quoted) :
    (Production.stringParts token).map (relocate point) = Production.stringParts token := by
  obtain ⟨inner, htext⟩ := hquoted.1
  have halong : ∀ left right, inner = left ++ right →
      ((token.start.step '"').advance left).Indexed point := by
    intro left right hinner
    exact h.along ('"' :: left) (right ++ ['"']) (by rw [htext, hinner]; simp)
  have hopen : (token.start.step '"').Indexed point := halong [] inner rfl
  rw [stringParts_eq htext, List.map_append, List.map_cons, relocate_escapes halong,
    relocate_leaf h.indexed_start hopen, List.map_singleton,
    relocate_leaf (halong inner [] (by simp)) h.indexed_stop]

end Node

/-- Nodes that cover tokens with the points of an index stay as they are. -/
theorem Covers.relocate_eq {point : Nat → Point} {textEnd : Location} {lo hi : Nat}
    {nodes : List Node} {tokens : List Token} (h : Covers textEnd lo hi nodes tokens)
    (hend : textEnd.Indexed point) (htokens : ∀ token ∈ tokens, token.Indexed point) :
    nodes.map (Node.relocate point) = nodes := by
  induction h with
  | nil => rfl
  | trivia _ _ _ _ ih =>
    have htoken := htokens _ List.mem_cons_self
    rw [List.map_cons, ih fun token hmem => htokens token (List.mem_cons_of_mem _ hmem)]
    congr 1
    exact Node.relocate_leaf htoken.indexed_start htoken.indexed_stop
  | leaf _ _ hlast _ _ _ ih =>
    have hfirst := htokens _ (List.mem_append_left _ List.mem_cons_self)
    have hlast := htokens _ (List.mem_append_left _ (List.mem_of_getLast? hlast))
    rw [List.map_cons, ih fun token hmem => htokens token (List.mem_append_right _ hmem),
      Node.relocate_leaf hfirst.indexed_start hlast.indexed_stop]
  | string _ hquoted _ _ ih =>
    have hparts := Node.relocate_stringParts (htokens _ List.mem_cons_self) hquoted
    rw [List.map_cons, ih fun token hmem => htokens token (List.mem_cons_of_mem _ hmem),
      Node.relocate_ofChildren _ (by simp [Production.stringParts]) hparts]
  | composite _ hne _ _ ih₁ ih₂ =>
    have hinner := ih₁ fun token hmem => htokens token (List.mem_append_left _ hmem)
    rw [List.map_cons, ih₂ fun token hmem => htokens token (List.mem_append_right _ hmem),
      Node.relocate_ofChildren _ hne hinner]
  | missing _ _ ih =>
    rw [List.map_cons, ih htokens, Node.relocate_leaf hend hend]

end Azsl
