/-
Azsl.Proofs.Syntax.Smallest — a search for a stretch of text finds the smallest node around it.

The search enters the first child that spans the stretch and never turns back. That is enough
where children stand in order within their parents: a later child can span the stretch as well
only if the one that was entered is empty and stands at the start of the stretch. So the search
is exact as long as a child that is entered in vain is never empty.
-/
import Azsl.Proofs.Syntax.Lookup
import Mathlib.Order.Defs.LinearOrder

namespace Azsl

/-! ## The order of points -/

namespace Point

theorem lt_iff {a b : Point} : a < b ↔ a.row < b.row ∨ a.row = b.row ∧ a.column < b.column :=
  Iff.rfl

theorem le_iff {a b : Point} : a ≤ b ↔ ¬ b < a := Iff.rfl

/-- Points come in the order of rows and, within a row, of columns. -/
instance : LinearOrder Point where
  le_refl a := by simp only [le_iff, lt_iff]; omega
  le_trans a b c := by simp only [le_iff, lt_iff]; omega
  le_antisymm a b := by
    obtain ⟨row, column⟩ := a
    obtain ⟨row', column'⟩ := b
    simp only [le_iff, lt_iff, mk.injEq]
    omega
  le_total a b := by simp only [le_iff, lt_iff]; omega
  lt_iff_le_not_ge a b := by simp only [le_iff, lt_iff]; omega
  toDecidableLE := inferInstance

end Point

/-! ## Spans and gaps -/

namespace Node

variable {start stop : Point}

/-- A node spans a stretch of text and ends behind the start of it. -/
structure Holds (start stop : Point) (node : Node) : Prop where
  before : node.start.point ≤ start
  behind : stop ≤ node.stop.point
  exceeds : start < node.stop.point

/-- A node reaches around its children, and these stand in order. Unnamed nodes have a width. -/
structure Arranged (node : Node) : Prop where
  around : ∀ child ∈ node.children,
    node.start.point ≤ child.start.point ∧ child.stop.point ≤ node.stop.point
  ordered : node.children.Pairwise fun first second => first.stop.point ≤ second.start.point
  width : node.start.point ≤ node.stop.point
  wide : node.kind.isNamed = false → node.start.point < node.stop.point

/-- What holds a stretch is skipped for nothing. -/
theorem Holds.fit {node : Node} (h : node.Holds start stop) :
    Focus.fit start stop node = .spans := by
  unfold Focus.fit
  rw [if_neg (not_lt.mpr h.behind), if_neg fun hempty => absurd h.exceeds (not_lt.mpr hempty.1),
    if_neg (not_lt.mpr h.before)]

theorem around_of_fit {node : Node} (h : Focus.fit start stop node = .spans) :
    node.start.point ≤ start ∧ stop ≤ node.stop.point := by
  unfold Focus.fit at h
  split_ifs at h with hstop hempty hstart
  exact ⟨not_lt.mp hstart, not_lt.mp hstop⟩

/-- A node that spans a stretch exceeds its start, or is empty. -/
theorem exceeds_of_fit {node : Node} (h : Focus.fit start stop node = .spans) :
    start < node.stop.point ∨ node.stop.point ≤ start ∧ node.start.point = start := by
  unfold Focus.fit at h
  split_ifs at h with hstop hempty hstart
  rcases lt_or_ge start node.stop.point with hlt | hle
  · exact .inl hlt
  · exact .inr ⟨hle, le_antisymm (not_lt.mp hstart) (not_lt.mp fun hlt => hempty ⟨hle, hlt⟩)⟩

theorem start_of_past {node : Node} (h : Focus.fit start stop node = .past) :
    start < node.start.point := by
  unfold Focus.fit at h
  split_ifs at h with hstop hempty hstart
  exact hstart

end Node

namespace Focus

variable {start stop : Point}

theorem self_mem_visible (focus : Focus) : focus ∈ focus.visible := by
  rw [visible_eq]
  exact List.mem_cons_self

/-- What is visible is there, or visible below a child. -/
theorem mem_visible_iff {focus below : Focus} (hkind : focus.kind ≠ .error) :
    below ∈ focus.visible ↔ below = focus ∨ ∃ child ∈ focus.children, below ∈ child.visible := by
  rw [visible_eq, if_neg hkind, List.mem_cons, List.mem_flatMap]

theorem mem_visible_of_child {focus child below : Focus} (hkind : focus.kind ≠ .error)
    (hchild : child ∈ focus.children) (h : below ∈ child.visible) : below ∈ focus.visible :=
  (mem_visible_iff hkind).mpr (.inr ⟨child, hchild, h⟩)

/-- Everything visible from a place is arranged. -/
def Arranged (focus : Focus) : Prop :=
  ∀ below ∈ focus.visible, below.node.Arranged

theorem Arranged.child {focus child : Focus} (h : focus.Arranged) (hkind : focus.kind ≠ .error)
    (hchild : child ∈ focus.children) : child.Arranged :=
  fun below hmem => h below (mem_visible_of_child hkind hchild hmem)

/-- A place reaches around everything visible from it. -/
theorem Arranged.within {focus below : Focus} (h : focus.Arranged) (hmem : below ∈ focus.visible) :
    focus.node.start.point ≤ below.node.start.point ∧
      below.node.stop.point ≤ focus.node.stop.point := by
  obtain ⟨node, frames⟩ := focus
  induction node using Node.rec_children generalizing frames with
  | step node ih =>
    have hself := h _ (self_mem_visible _)
    rw [visible_eq] at hmem
    rcases List.mem_cons.mp hmem with rfl | hmem
    · exact ⟨le_refl _, le_refl _⟩
    · split at hmem
      · cases hmem
      · rename_i hkind
        obtain ⟨⟨child, frames'⟩, hchild, hbelow⟩ := List.mem_flatMap.mp hmem
        have hnode : child ∈ node.children := node_mem_children hchild
        obtain ⟨hstart, hstop⟩ := hself.around child hnode
        obtain ⟨hstart', hstop'⟩ := ih child hnode frames' (h.child hkind hchild) hbelow
        exact ⟨le_trans hstart hstart', le_trans hstop' hstop⟩

/-- If something visible holds a stretch, so does everything around it. -/
theorem Arranged.holds {focus below : Focus} (h : focus.Arranged) (hmem : below ∈ focus.visible)
    (hholds : below.node.Holds start stop) : focus.node.Holds start stop := by
  obtain ⟨hstart, hstop⟩ := h.within hmem
  exact ⟨le_trans hstart hholds.before, le_trans hholds.behind hstop,
    lt_of_lt_of_le hholds.exceeds hstop⟩

/-- One node ends before another starts. -/
def Before (first second : Focus) : Prop :=
  first.node.stop.point ≤ second.node.start.point

/-- Of two children one stands before the other. -/
theorem Arranged.children {focus first second : Focus} (h : focus.Arranged)
    (hfirst : first ∈ focus.children) (hsecond : second ∈ focus.children) :
    first = second ∨ first.Before second ∨ second.Before first := by
  have hordered := (h _ (self_mem_visible _)).ordered
  rw [← children_node focus, List.pairwise_map] at hordered
  have hpair := List.pairwise_iff_getElem.mp hordered
  obtain ⟨i, hi, rfl⟩ := List.getElem_of_mem hfirst
  obtain ⟨j, hj, rfl⟩ := List.getElem_of_mem hsecond
  rcases Nat.lt_trichotomy i j with hlt | rfl | hlt
  · exact .inr (.inl (hpair i j hi hj hlt))
  · exact .inl rfl
  · exact .inr (.inr (hpair j i hj hi hlt))

/-- Of two places one is below the other, or one stands before the other. -/
theorem Arranged.apart {root first second : Focus} (h : root.Arranged)
    (hfirst : first ∈ root.visible) (hsecond : second ∈ root.visible) :
    first ∈ second.visible ∨ second ∈ first.visible ∨ first.Before second ∨
      second.Before first := by
  obtain ⟨node, frames⟩ := root
  induction node using Node.rec_children generalizing frames with
  | step node ih =>
    by_cases hkind : kind ⟨node, frames⟩ = .error
    · rw [visible_eq, if_pos hkind, List.mem_singleton] at hfirst
      rw [hfirst]
      exact .inr (.inl hsecond)
    · rcases (mem_visible_iff hkind).mp hfirst with rfl | ⟨child, hchild, hfirst'⟩
      · exact .inr (.inl hsecond)
      rcases (mem_visible_iff hkind).mp hsecond with rfl | ⟨child', hchild', hsecond'⟩
      · exact .inl hfirst
      have hbelow := h.child hkind hchild
      have hbelow' := h.child hkind hchild'
      rcases h.children hchild hchild' with rfl | hbefore | hbehind
      · exact ih child.node (node_mem_children hchild) child.frames hbelow hfirst' hsecond'
      · exact .inr (.inr (.inl (le_trans (hbelow.within hfirst').2
          (le_trans hbefore (hbelow'.within hsecond').1))))
      · exact .inr (.inr (.inr (le_trans (hbelow'.within hsecond').2
          (le_trans hbehind (hbelow.within hfirst').1))))

/-! ## Smallest nodes -/

/-- Nothing named that is visible holds a stretch of text. -/
def Free (start stop : Point) (focus : Focus) : Prop :=
  ∀ below ∈ focus.visible, below.kind.isNamed = true → ¬ below.node.Holds start stop

/-- A place is that of a named node that spans a stretch of text, and nothing named below it that
no error hides holds the stretch. An error is taken as it is. -/
structure Smallest (start stop : Point) (focus : Focus) : Prop where
  named : focus.kind.isNamed = true
  around : focus.node.start.point ≤ start ∧ stop ≤ focus.node.stop.point
  minimal : focus.kind = .error ∨ ∀ child ∈ focus.children, child.Free start stop

/-- What going down into a place finds: something smallest, or nothing as there is nothing. It
is never in vain for a named node. -/
def Entered (start stop : Point) (place best found : Focus) : Prop :=
  (place.kind.isNamed = false ∧ found = best ∧ place.Free start stop) ∨
    found ∈ place.visible ∧ found.Smallest start stop

/-- What going through some places finds. -/
def Searched (start stop : Point) (places : List Focus) (best found : Focus) : Prop :=
  (found = best ∧ ∀ place ∈ places, place.Free start stop) ∨
    ∃ place ∈ places, found ∈ place.visible ∧ found.Smallest start stop

theorem Arranged.free_of_not_holds {focus : Focus} (h : focus.Arranged)
    (hnot : ¬ focus.node.Holds start stop) : focus.Free start stop :=
  fun _ hbelow _ hholds => hnot (h.holds hbelow hholds)

/-- Nothing that starts behind the start of a stretch holds it. -/
theorem Arranged.free_of_past {focus : Focus} (h : focus.Arranged)
    (hpast : start < focus.node.start.point) : focus.Free start stop :=
  h.free_of_not_holds fun hholds => absurd hpast (not_lt.mpr hholds.before)

/-- Going through children finds something smallest, if going down into each does. -/
theorem descendInto_searched {label : Label} {outer : List Frame} {best : Focus}
    {nodes before : List Node}
    (hordered : nodes.Pairwise fun first second => first.stop.point ≤ second.start.point)
    (harranged : ∀ place ∈ spread label outer before nodes, place.Arranged)
    (h : ∀ place ∈ spread label outer before nodes, fit start stop place.node = .spans →
      Entered start stop place best (descend start stop best place.frames place.node)) :
    Searched start stop (spread label outer before nodes) best
      (descendInto start stop best label outer before nodes) := by
  induction nodes generalizing before with
  | nil => exact .inl ⟨rfl, fun place hmem => by cases hmem⟩
  | cons child rest ih =>
    rw [spread] at harranged h ⊢
    obtain ⟨hchild, hothers⟩ := List.forall_mem_cons.mp harranged
    have hself : child.Arranged := hchild _ (self_mem_visible _)
    -- what stands behind the child stands behind all that ends before it
    have hfree : start < child.stop.point →
        ∀ place ∈ spread label outer (child :: before) rest, place.Free start stop := by
      intro hstop place hmem
      have hnode : place.node ∈ rest := by
        rw [← spread_node label outer (child :: before) rest]
        exact List.mem_map_of_mem hmem
      exact (hothers place hmem).free_of_past
        (lt_of_lt_of_le hstop (List.rel_of_pairwise_cons hordered hnode))
    rw [descendInto]
    cases hfit : fit start stop child with
    | skip =>
      have hnot : ¬ child.Holds start stop := fun hholds => by
        rw [hholds.fit] at hfit
        cases hfit
      obtain ⟨hbest, hall⟩ | ⟨place, hmem, hfound⟩ := ih hordered.of_cons hothers
        (List.forall_mem_cons.mp h).2
      · exact .inl ⟨hbest, List.forall_mem_cons.mpr ⟨hchild.free_of_not_holds hnot, hall⟩⟩
      · exact .inr ⟨place, List.mem_cons_of_mem _ hmem, hfound⟩
    | past =>
      have hstart := Node.start_of_past hfit
      exact .inl ⟨rfl, List.forall_mem_cons.mpr
        ⟨hchild.free_of_past hstart, hfree (lt_of_lt_of_le hstart hself.width)⟩⟩
    | spans =>
      obtain ⟨hunnamed, hbest, hvain⟩ | hfound := (List.forall_mem_cons.mp h).1 hfit
      · -- the child is unnamed, hence not empty, and exceeds the start of the stretch
        have hstop : start < child.stop.point := by
          rcases Node.exceeds_of_fit hfit with hexceeds | ⟨hle, hstart⟩
          · exact hexceeds
          · exact absurd (hself.wide hunnamed) (not_lt.mpr (hstart ▸ hle))
        exact .inl ⟨hbest, List.forall_mem_cons.mpr ⟨hvain, hfree hstop⟩⟩
      · exact .inr ⟨_, List.mem_cons_self, hfound⟩

/-- Going down into a node that spans a stretch finds something smallest. -/
theorem descend_entered (node : Node) (frames : List Frame) (best : Focus)
    (harranged : Arranged ⟨node, frames⟩) (hfit : fit start stop node = .spans) :
    Entered start stop ⟨node, frames⟩ best (descend start stop best frames node) := by
  induction node using Node.rec_children generalizing frames best with
  | step node ih =>
    obtain ⟨label, children⟩ := node
    rw [descend]
    split
    · rename_i herror
      refine .inr ⟨self_mem_visible _, ?_, Node.around_of_fit hfit, .inl herror⟩
      show label.kind.isNamed = true
      rw [herror]
      rfl
    · rename_i herror
      have hkind : Focus.kind ⟨.mk label children, frames⟩ ≠ .error := herror
      have hsearched : ∀ best, Searched start stop (Focus.children ⟨.mk label children, frames⟩)
          best (descendInto start stop best label frames [] children) := by
        intro best
        refine descendInto_searched (harranged _ (self_mem_visible _)).ordered
          (fun place hmem => harranged.child hkind hmem) fun place hmem hplace => ?_
        have hnode : place.node ∈ children := by
          rw [← spread_node label frames [] children]
          exact List.mem_map_of_mem hmem
        exact ih _ hnode _ _ (harranged.child hkind hmem) hplace
      cases hnamed : label.kind.isNamed with
      | true =>
        rw [if_pos rfl]
        obtain ⟨hbest, hall⟩ | ⟨place, hmem, hfound, hsmallest⟩ := hsearched _
        · rw [hbest]
          exact .inr ⟨self_mem_visible _, hnamed, Node.around_of_fit hfit, .inr hall⟩
        · exact .inr ⟨mem_visible_of_child hkind hmem hfound, hsmallest⟩
      | false =>
        rw [if_neg (by simp)]
        obtain ⟨hbest, hall⟩ | ⟨place, hmem, hfound, hsmallest⟩ := hsearched best
        · refine .inl ⟨hnamed, hbest, fun below hbelow hbelowNamed => ?_⟩
          rcases (mem_visible_iff hkind).mp hbelow with rfl | ⟨place, hplace, hbelow⟩
          · exact absurd (hnamed.symm.trans hbelowNamed) (by simp)
          · exact hall place hplace below hbelow hbelowNamed
        · exact .inr ⟨mem_visible_of_child hkind hmem hfound, hsmallest⟩

/-- A search that starts from a named node around a stretch finds something smallest. -/
theorem namedAt_smallest {focus : Focus} (harranged : focus.Arranged)
    (hnamed : focus.kind.isNamed = true) (hkind : focus.kind ≠ .error)
    (haround : focus.node.start.point ≤ start ∧ stop ≤ focus.node.stop.point) :
    focus.namedAt start stop ∈ focus.visible ∧
      (focus.namedAt start stop).Smallest start stop := by
  have hsearched : Searched start stop focus.children focus (focus.namedAt start stop) :=
    descendInto_searched (harranged _ (self_mem_visible _)).ordered
      (fun place hmem => harranged.child hkind hmem)
      fun place hmem hplace => descend_entered _ _ _ (harranged.child hkind hmem) hplace
  obtain ⟨hbest, hall⟩ | ⟨place, hmem, hfound, hsmallest⟩ := hsearched
  · rw [hbest]
    exact ⟨self_mem_visible _, hnamed, haround, .inr hall⟩
  · exact ⟨mem_visible_of_child hkind hmem hfound, hsmallest⟩

end Focus

end Azsl
