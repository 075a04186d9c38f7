/-
Azsl.Proofs.Symbol.Calls — the call that is found at a position is the one that is there.

A name is called if it ends the expression that arguments are applied to. The search for a call
only looks at what is around the name, hop by hop; what it does not look at is right in every
tree of a text (`Node.Shaped`). And at an offset within a name the tree finds that name: the
nodes that could get in the way are empty, and none of them stands where a name starts.
-/
import Azsl.Proofs.Parse.Empty
import Azsl.Proofs.Parse.Lookup
import Azsl.Proofs.Parse.Shape
import Azsl.Symbol.Collect

namespace Azsl

/-! ## Parents -/

namespace Focus

/-- The node that the innermost frame comes from. -/
theorem parent_mem {root focus : Focus} {frame : Frame} {outer : List Frame}
    (hmem : focus ∈ root.descendants) (hroot : root.frames = [])
    (hframes : focus.frames = frame :: outer) :
    ⟨.mk frame.label (frame.before.reverse ++ focus.node :: frame.after), outer⟩
      ∈ root.descendants := by
  have hne : focus ≠ root := by
    rintro rfl
    rw [hroot] at hframes
    cases hframes
  obtain ⟨parent, hparent, -, hlink, -⟩ := root.linked.up focus hmem hne
  rw [Focus.parent, hframes] at hlink
  rwa [Option.some.inj hlink]

/-! ## Names that are called -/

/-- A qualified name, from where these frames lead up, is what arguments are applied to: it ends
an expression, up to extras, and this is the first child of another one with nothing but arguments
behind it. -/
def Applied (frames : List Frame) : Prop :=
  ∃ callee call outer, frames = callee :: call :: outer ∧
    callee.label.kind = .expression ∧ (∀ node ∈ callee.after, node.kind.isExtra = true) ∧
    call.label.kind = .expression ∧ call.before = [] ∧
    (call.after.filter (!·.kind.isExtra)).map (·.kind) = [.argumentList]

/-- A name is called if the qualified name around it is what arguments are applied to. -/
def Called (focus : Focus) : Prop :=
  ∃ name outer, focus.frames = name :: outer ∧ name.label.kind = .idExpression ∧ Applied outer

theorem Applied.calledIn {frames : List Frame} (h : Applied frames) :
    Symbols.calledIn frames = true := by
  obtain ⟨callee, call, outer, rfl, hcallee, -, -, -, harguments⟩ := h
  have hfind : call.after.find? (fun node => node.kind.isNamed && !node.kind.isExtra)
      = (call.after.filter (!·.kind.isExtra)).find? (·.kind.isNamed) := by
    rw [List.find?_filter]
    simp [Bool.and_comm]
  obtain ⟨arguments, hlist, harguments⟩ := List.map_eq_singleton_iff.mp harguments
  rw [Symbols.calledIn, hcallee, if_neg (by simp), if_pos rfl]
  simp only [hfind, hlist]
  simp [harguments, NodeKind.isNamed]

theorem Called.isCall {focus : Focus} (h : focus.Called) (hkind : focus.kind = .identifier) :
    Symbols.isCall focus = true := by
  obtain ⟨name, outer, hframes, hname, happlied⟩ := h
  have hout : Symbols.calledIn (name :: outer) = Symbols.calledIn outer := by
    rw [Symbols.calledIn.eq_def]
    exact if_pos hname
  rw [Symbols.isCall, hkind, hframes, hout, happlied.calledIn]
  rfl

end Focus

/-- Behind a qualified name in an expression there are only extras. -/
theorem Node.Shaped.extras_behind {node name : Node} (h : node.Shaped)
    (hkind : node.kind = .expression) {before after : List Node}
    (hchildren : node.children = before ++ name :: after) (hname : name.kind = .idExpression) :
    ∀ behind ∈ after, behind.kind.isExtra = true := by
  intro behind hmem
  by_contra hextra
  have hkept : node.children.filter (!·.kind.isExtra)
      = before.filter (!·.kind.isExtra) ++ name :: after.filter (!·.kind.isExtra) := by
    rw [hchildren, List.filter_append, List.filter_cons, hname]
    rfl
  have hne : after.filter (!·.kind.isExtra) ≠ [] :=
    List.ne_nil_of_mem (List.mem_filter.mpr ⟨hmem, by simpa using hextra⟩)
  refine h.last hkind name ?_ hname
  rw [hkept, List.dropLast_append_of_ne_nil (List.cons_ne_nil _ _),
    List.dropLast_cons_of_ne_nil hne]
  exact List.mem_append_right _ List.mem_cons_self

namespace Focus

section Shaped

variable {root focus : Focus} (hroot : root.frames = [])
  (hshaped : ∀ below ∈ root.descendants, below.node.Shaped) (hmem : focus ∈ root.descendants)

include hroot hshaped hmem

/-- The arguments that an expression is applied to are all there is behind it. -/
theorem sole_arguments {frame : Frame} {outer : List Frame} (hkind : focus.kind = .expression)
    (hframes : focus.frames = frame :: outer) {arguments : Node}
    (harguments : arguments ∈ frame.after) (hargumentList : arguments.kind = .argumentList) :
    frame.label.kind = .expression ∧ frame.before = [] ∧
      (frame.after.filter (!·.kind.isExtra)).map (·.kind) = [.argumentList] := by
  have hparent := parent_mem hmem hroot hframes
  obtain ⟨hlabel, first, rest, hchildren, hrest⟩ := (hshaped _ hparent).applied arguments
    (List.mem_append_right _ (List.mem_cons_of_mem _ harguments)) hargumentList
  have hrow : frame.before.reverse ++ focus.node :: frame.after = first :: rest := hchildren
  have hbefore : frame.before.reverse = [] := by
    by_contra hne
    obtain ⟨callee, others, hothers⟩ := List.exists_cons_of_ne_nil hne
    rw [hothers, List.cons_append] at hrow
    obtain ⟨-, rfl⟩ := List.cons.inj hrow
    -- the expression is no extra, so it is among what may only be arguments
    have hlist : focus.kind ∈ ((others ++ focus.node :: frame.after).filter
        (!·.kind.isExtra)).map (·.kind) := by
      refine List.mem_map.mpr ⟨focus.node, List.mem_filter.mpr ⟨by simp, ?_⟩, rfl⟩
      have hnode : focus.node.kind = .expression := hkind
      rw [hnode]
      rfl
    rw [hrest, List.mem_singleton, hkind] at hlist
    cases hlist
  rw [hbefore] at hrow
  obtain ⟨-, rfl⟩ := List.cons.inj hrow
  exact ⟨hlabel, List.reverse_eq_nil_iff.mp hbefore, hrest⟩

/-- Where the search says that a qualified name is called, arguments are applied to it. -/
theorem applied_of_calledIn (hkind : focus.kind = .idExpression)
    (hcalled : Symbols.calledIn focus.frames = true) : Applied focus.frames := by
  cases hframes : focus.frames with
  | nil => simp [hframes, Symbols.calledIn] at hcalled
  | cons callee outer =>
    have hcallee := parent_mem hmem hroot hframes
    rw [hframes] at hcalled
    unfold Symbols.calledIn at hcalled
    split at hcalled
    · -- the qualified name would be nested in another
      rename_i hnested
      exact absurd hkind ((hshaped _ hcallee).flat hnested focus.node
        (List.mem_append_right _ List.mem_cons_self))
    · split at hcalled
      · rename_i hexpression
        have hextras := (hshaped _ hcallee).extras_behind hexpression rfl hkind
        cases outer with
        | nil => cases hcalled
        | cons call outer =>
          obtain ⟨arguments, hfound, harguments⟩ := (Option.any_eq_true _ _).mp hcalled
          exact ⟨callee, call, outer, rfl, hexpression, hextras,
            sole_arguments hroot hshaped hcallee hexpression rfl
              (List.mem_of_find?_eq_some hfound) (beq_iff_eq.mp harguments)⟩
      · cases hcalled

/-- A name that the search takes for a call is called. -/
theorem called_of_isCall (hcall : Symbols.isCall focus = true) : focus.Called := by
  obtain ⟨hkind, hcalled⟩ := Bool.and_eq_true_iff.mp hcall
  have hidentifier : focus.node.kind = .identifier := beq_iff_eq.mp hkind
  cases hframes : focus.frames with
  | nil => simp [hframes, Symbols.calledIn] at hcalled
  | cons name outer =>
    have hname := parent_mem hmem hroot hframes
    rw [hframes] at hcalled
    unfold Symbols.calledIn at hcalled
    split at hcalled
    · rename_i hnameKind
      exact ⟨name, outer, hframes, hnameKind,
        applied_of_calledIn hroot hshaped hname hnameKind hcalled⟩
    · split at hcalled
      · -- the name would be a child of an expression
        rename_i hexpression
        exact absurd hidentifier ((hshaped _ hname).named hexpression focus.node
          (List.mem_append_right _ List.mem_cons_self))
      · cases hcalled

end Shaped

end Focus

/-! ## Names at an offset -/

namespace Parse

variable {chars : List Char} {focus : Focus} {here : Location}

/-- What is found at a place of the text is the smallest named node around it. -/
theorem namedAt_smallest (hstands : here.Stands chars) :
    (Focus.ofRoot (parse chars none).root).namedAt here.point here.point
        ∈ (Focus.ofRoot (parse chars none).root).visible ∧
      ((Focus.ofRoot (parse chars none).root).namedAt here.point here.point).Smallest
        here.point here.point := by
  obtain ⟨hstandsStart, hstandsStop⟩ := ends_of_mem (parse chars none).root.self_mem_descendants
  have hkind : (Focus.ofRoot (parse chars none).root).kind = .sourceFile := root_kind chars
  refine Focus.namedAt_smallest (arranged chars) (by rw [hkind]; rfl) (by rw [hkind]; nofun)
    ⟨(hstandsStart.point_le_iff hstands).mpr ?_, (hstands.point_le_iff hstandsStop).mpr ?_⟩
  · have hzero : (parse chars none).root.start.byte = 0 := by rw [root_start]; rfl
    omega
  · rw [root_stop, Location.byte_origin]
    exact hstands.byte_le

/-- At an offset within a name the tree finds the name. -/
theorem namedAt_name (hvisible : focus ∈ (Focus.ofRoot (parse chars none).root).visible)
    (hkind : focus.kind = .identifier) (hstands : here.Stands chars)
    (hstart : focus.node.start.byte ≤ here.byte) (hstop : here.byte < focus.node.stop.byte) :
    (Focus.ofRoot (parse chars none).root).namedAt here.point here.point = focus := by
  obtain ⟨hstandsStart, hstandsStop⟩ := ends_of_mem (node_mem_descendants hvisible)
  have hsolid := solid_of_mem_visible hvisible
  have hholds : focus.node.Holds here.point here.point :=
    ⟨(hstandsStart.point_le_iff hstands).mpr hstart,
      (hstands.point_le_iff hstandsStop).mpr (Nat.le_of_lt hstop),
      (hstands.point_lt_iff hstandsStop).mpr hstop⟩
  obtain ⟨hfound, hsmallest⟩ := namedAt_smallest hstands
  have himproves := (Focus.ofRoot (parse chars none).root).namedAt_improves here.point here.point
  generalize (Focus.ofRoot (parse chars none).root).namedAt here.point here.point = found
    at hfound hsmallest himproves ⊢
  -- nothing named below what is found holds the offset
  have hbelow : focus ∈ found.visible → found = focus := by
    intro hmem
    rw [Focus.visible_eq] at hmem
    rcases List.mem_cons.mp hmem with heq | hmem
    · exact heq.symm
    · split at hmem
      · cases hmem
      · rename_i herror
        obtain ⟨child, hchild, hmem⟩ := List.mem_flatMap.mp hmem
        have hnamed : focus.kind.isNamed = true := by rw [hkind]; rfl
        exact absurd hholds
          (hsmallest.minimal.resolve_left herror child hchild focus hmem hnamed)
  rcases (arranged chars).apart hfound hvisible with hmem | hmem | hbefore | hbehind
  · have hleaf : focus.children = [] := by
      rw [Focus.children, hsolid.leaf (.inr hkind)]
      rfl
    rw [Focus.visible_eq, hleaf] at hmem
    simpa using hmem
  · exact hbelow hmem
  · by_cases hroot : found = Focus.ofRoot (parse chars none).root
    · exact hbelow (hroot ▸ hvisible)
    -- what is found ends before the name starts, so it is empty and stands where the name does
    exfalso
    obtain hsame | ⟨-, hfit⟩ := himproves
    · exact hroot hsame
    obtain ⟨hfoundStart, hfoundStop⟩ := ends_of_mem (node_mem_descendants hfound)
    have hle := (hfoundStop.point_le_iff hstandsStart).mp hbefore
    have hreaches := (hstands.point_le_iff hfoundStop).mp hsmallest.around.2
    rcases Node.exceeds_of_fit hfit with hexceeds | ⟨-, hat⟩
    · have hlt := (hstands.point_lt_iff hfoundStop).mp hexceeds
      omega
    · have hbelowRoot := Focus.mem_below (Focus.mem_descendants_of_visible hfound) hroot
      have hfrom := (hstands.point_le_iff hfoundStart).mp (le_of_eq hat.symm)
      have hto := (hfoundStart.point_le_iff hstands).mp (le_of_eq hat)
      exact start_ne_of_empty hbelowRoot (by omega) hsolid hkind
        (spans_of_mem (node_mem_descendants hvisible)).bound (by omega)
  · exact absurd (lt_of_lt_of_le hholds.exceeds (le_trans hbehind hsmallest.around.1))
      (lt_irrefl _)

/-- A name that the tree finds at an offset is a leaf, and the offset is within it. -/
theorem name_of_namedAt (hstands : here.Stands chars)
    (hfound : (Focus.ofRoot (parse chars none).root).namedAt here.point here.point = focus)
    (hkind : focus.kind = .identifier) :
    focus ∈ (Focus.ofRoot (parse chars none).root).visible ∧ focus.node.children = [] ∧
      focus.node.start.byte ≤ here.byte ∧ here.byte < focus.node.stop.byte := by
  have hvisible := (namedAt_smallest hstands).1
  have himproves := (Focus.ofRoot (parse chars none).root).namedAt_improves here.point here.point
  rw [hfound] at hvisible himproves
  have hsolid := solid_of_mem_visible hvisible
  have hwidth := hsolid.width (.inr hkind)
  obtain ⟨hstandsStart, hstandsStop⟩ := ends_of_mem (node_mem_descendants hvisible)
  obtain rfl | ⟨-, hfit⟩ := himproves
  · rw [Focus.kind, Focus.ofRoot, root_kind] at hkind
    cases hkind
  have hbefore := (hstandsStart.point_le_iff hstands).mp (Node.around_of_fit hfit).1
  refine ⟨hvisible, hsolid.leaf (.inr hkind), hbefore, ?_⟩
  rcases Node.exceeds_of_fit hfit with hexceeds | ⟨hle, hat⟩
  · exact (hstands.point_lt_iff hstandsStop).mp hexceeds
  · -- the name is not empty
    have hbehind := (hstandsStop.point_le_iff hstands).mp hle
    have hsame := (hstands.point_le_iff hstandsStart).mp (le_of_eq hat.symm)
    omega

theorem shaped (chars : List Char) :
    ∀ below ∈ (Focus.ofRoot (parse chars none).root).descendants, below.node.Shaped := by
  intro below hmem
  have hnode : below.node ∈ (parse chars none).root.descendants := Focus.node_mem_descendants hmem
  exact shaped_of_mem hnode

end Parse

/-- The calls that a text finds are the names that are called: there is one at a position exactly
if the offset of the position is within the name. -/
theorem callAt_eq_some_iff (chars : List Char) (position : Position) (name : String) :
    Symbols.callAt? (.ofChars chars) (parse chars none) position = some name ↔
      ∃ focus ∈ (Focus.ofRoot (parse chars none).root).visible,
        focus.kind = .identifier ∧ focus.node.children = [] ∧
        focus.node.start.byte ≤ (SourceText.ofChars chars).offsetAt position ∧
        (SourceText.ofChars chars).offsetAt position < focus.node.stop.byte ∧
        focus.Called ∧ Symbols.sourceOf (.ofChars chars) focus.node = name := by
  obtain ⟨left, right, hchars, hoffset⟩ := SourceText.bound_offsetAt chars position
  have hstands : (Location.origin.advance left).Stands chars := ⟨left, right, hchars, rfl⟩
  have hbyte : (Location.origin.advance left).byte = (SourceText.ofChars chars).offsetAt position :=
    (Location.byte_origin left).trans hoffset
  generalize Location.origin.advance left = here at hstands hbyte
  unfold Symbols.callAt?
  simp only [← hbyte, ← hstands.point_eq]
  constructor
  · intro hcall
    split at hcall
    · rename_i hisCall
      have hkind : ((Focus.ofRoot (parse chars none).root).namedAt here.point here.point).kind
          = .identifier := beq_iff_eq.mp (Bool.and_eq_true_iff.mp hisCall).1
      obtain ⟨hvisible, hleaf, hstart, hstop⟩ := Parse.name_of_namedAt hstands rfl hkind
      exact ⟨_, hvisible, hkind, hleaf, hstart, hstop,
        Focus.called_of_isCall rfl (Parse.shaped chars) (Focus.mem_descendants_of_visible hvisible)
          hisCall, Option.some.inj hcall⟩
    · cases hcall
  · rintro ⟨focus, hvisible, hkind, -, hstart, hstop, hcalled, hname⟩
    rw [Parse.namedAt_name hvisible hkind hstands hstart hstop, if_pos (hcalled.isCall hkind),
      hname]

/-- A comment does not hide a call, and an argument is none. -/
example :
    let text := SourceText.ofString "void g() \x7b f /* of */ (a); \x7d"
    Symbols.callAt? text (parse text.chars none) ⟨0, 11⟩ = some "f" ∧
      Symbols.callAt? text (parse text.chars none) ⟨0, 23⟩ = none := by
  decide +kernel

end Azsl
