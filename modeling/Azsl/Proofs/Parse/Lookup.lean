/-
Azsl.Proofs.Parse.Lookup — looking up a stretch of a text finds the smallest named node around it.

In the tree of a text children stand in order within their parents, and no unnamed node that an
error does not hide is empty. So the search, which enters the first child that spans the stretch
and never turns back, is exact (`parse_findsSmallest`).
-/
import Azsl.Proofs.Parse.Leaves
import Azsl.Proofs.Parse.Places
import Azsl.Proofs.Syntax.Smallest

namespace Azsl

/-! ## Points and bytes -/

namespace Location.Stands

variable {chars : List Char} {here there : Location}

theorem point_among (h : here.Stands chars) :
    here.point = pointAmong (lineStarts chars) here.byte := by
  have hle : here.byte ≤ (SourceText.ofChars chars).size := h.byte_le
  rw [h.point_eq, SourceText.pointAt, Nat.min_eq_left hle]
  rfl

/-- Places of a text come in the order of their bytes. -/
theorem point_lt_iff (h : here.Stands chars) (h' : there.Stands chars) :
    here.point < there.point ↔ here.byte < there.byte := by
  rw [h.point_among, h'.point_among, pointAmong_lt_iff]

theorem point_le_iff (h : here.Stands chars) (h' : there.Stands chars) :
    here.point ≤ there.point ↔ here.byte ≤ there.byte := by
  rw [← not_lt, h'.point_lt_iff h, Nat.not_lt]

end Location.Stands

/-! ## Trees of texts -/

namespace Parse

variable {chars : List Char} {focus : Focus}

theorem node_mem_descendants (h : focus ∈ (Focus.ofRoot (parse chars none).root).visible) :
    focus.node ∈ (parse chars none).root.descendants :=
  Focus.node_mem_descendants (Focus.mem_descendants_of_visible h)

/-- Children do not overlap. -/
theorem ordered_of_mem {node : Node} (h : node ∈ (parse chars none).root.descendants) :
    node.Ordered := by
  rw [Node.descendants_eq] at h
  rcases List.mem_cons.mp h with rfl | hbelow
  · exact root_ordered chars
  · exact (formed_of_mem hbelow).ordered

/-- Whatever no error hides is arranged. -/
theorem arranged (chars : List Char) : (Focus.ofRoot (parse chars none).root).Arranged := by
  intro focus hfocus
  have hmem := node_mem_descendants hfocus
  have hspans := spans_of_mem hmem
  obtain ⟨hstart, hstop⟩ := ends_of_mem hmem
  have hends : ∀ child ∈ focus.node.children, child.Ends (Location.Stands chars) :=
    fun child hchild => ends_of_mem (Node.child_mem_descendants hmem hchild)
  refine ⟨fun child hchild => ?_, ?_, (hstart.point_le_iff hstop).mpr hspans.width,
    fun hunnamed => ?_⟩
  · obtain ⟨hbefore, hbehind⟩ := hspans.around child hchild
    obtain ⟨hchildStart, hchildStop⟩ := hends child hchild
    exact ⟨(hstart.point_le_iff hchildStart).mpr hbefore,
      (hchildStop.point_le_iff hstop).mpr hbehind⟩
  · exact (ordered_of_mem hmem).imp_of_mem fun hfirst hsecond hle =>
      ((hends _ hfirst).2.point_le_iff (hends _ hsecond).1).mpr hle
  · have htoken : focus.node.kind = .token := by simpa [NodeKind.isNamed] using hunnamed
    exact (hstart.point_lt_iff hstop).mpr ((solid_of_mem_visible hfocus).width (.inl htoken))

end Parse

/-- Around every stretch of its text a tree finds a named node, and this is an error, or no named
node below it that no error hides spans the stretch and ends behind its start. -/
def Node.FindsSmallest (root : Node) : Prop :=
  ∀ start stop : Point, root.start.point ≤ start → stop ≤ root.stop.point →
    (Focus.ofRoot root).namedAt start stop ∈ (Focus.ofRoot root).visible ∧
      ((Focus.ofRoot root).namedAt start stop).Smallest start stop

/-- Looking up a stretch of a text finds the smallest named node around it. -/
theorem parse_findsSmallest (chars : List Char) : (parse chars none).root.FindsSmallest := by
  intro start stop hstart hstop
  refine Focus.namedAt_smallest (Parse.arranged chars) ?_ ?_ ⟨hstart, hstop⟩
  · rw [Focus.kind, Focus.ofRoot, Parse.root_kind]
    rfl
  · rw [Focus.kind, Focus.ofRoot, Parse.root_kind]
    nofun

end Azsl
