/-
Azsl.Proofs.Workspace.Outline — the functions that an editor is told a document has.

A table has one function for each name, that of the last signature with the name. Signatures with
different names start at different bytes (`Parse.firstName_eq`), and different bytes of a text have
different positions. So the functions stand at different positions, and to put them in the order of
these leaves no choice: the list does not depend on the order that the table keeps them in.
-/
import Azsl.Proofs.Parse.Names
import Azsl.Proofs.Symbol.Functions
import Azsl.Proofs.Text.Order
import Azsl.Proofs.Workspace.InSync
import Azsl.Workspace.Query

namespace Azsl

/-! ## Tables -/

namespace FunctionTable

/-- No two functions of a table have the same name. -/
def Distinct (table : FunctionTable) : Prop :=
  table.functions.Pairwise fun first second => first.name ≠ second.name

/-- No two functions of a table start at the same position. -/
def Separate (table : FunctionTable) : Prop :=
  table.functions.Pairwise fun first second => first.range.start ≠ second.range.start

variable {table other : FunctionTable} {function : FunctionSymbol} {name : String}

theorem Distinct.insert (h : table.Distinct) (function : FunctionSymbol) :
    (table.insert function).Distinct := by
  refine List.pairwise_append.mpr
    ⟨h.sublist List.filter_sublist, List.pairwise_singleton _ _, ?_⟩
  intro first hfirst second hsecond
  obtain rfl := List.mem_singleton.mp hsecond
  simpa using (List.mem_filter.mp hfirst).2

theorem distinct_ofList (functions : List FunctionSymbol) : (ofList functions).Distinct := by
  induction functions using List.reverseRecOn with
  | nil => exact .nil
  | append_singleton front function ih =>
    rw [ofList, List.foldl_append]
    exact ih.insert function

/-- A function is the one that the table has for its name. -/
theorem Distinct.get?_of_mem (h : table.Distinct) (hmem : function ∈ table.functions) :
    table.get? function.name = some function := by
  obtain ⟨before, behind, hsplit⟩ := List.append_of_mem hmem
  have hdistinct : table.functions.Pairwise _ := h
  rw [hsplit] at hdistinct
  refine List.find?_eq_some_iff_append.mpr ⟨by simp, before, behind, hsplit, fun first hfirst => ?_⟩
  have hne := (List.pairwise_append.mp hdistinct).2.2 first hfirst function List.mem_cons_self
  simpa using hne

/-- The function for a name is the only one with the name. -/
theorem Distinct.filter_eq (h : table.Distinct) (hget : table.get? name = some function) :
    table.functions.filter (·.name == name) = [function] := by
  obtain ⟨hname, before, behind, hsplit, hbefore⟩ := List.find?_eq_some_iff_append.mp hget
  have hdistinct : table.functions.Pairwise _ := h
  rw [hsplit] at hdistinct
  have hbehind : behind.filter (·.name == name) = [] := by
    refine List.filter_eq_nil_iff.mpr fun second hsecond => ?_
    have hne := List.rel_of_pairwise_cons (List.pairwise_append.mp hdistinct).2.1 hsecond
    rw [beq_iff_eq.mp hname] at hne
    simpa using hne.symm
  have hnone : before.filter (·.name == name) = [] :=
    List.filter_eq_nil_iff.mpr fun first hfirst => by simpa using hbefore first hfirst
  rw [hsplit, List.filter_append, hnone, List.nil_append, List.filter_cons, if_pos hname,
    hbehind]

theorem inOrder_perm (table : FunctionTable) : table.inOrder.Perm table.functions :=
  List.mergeSort_perm _ _

theorem Distinct.filter_inOrder (h : table.Distinct) (hget : table.get? name = some function) :
    table.inOrder.filter (·.name == name) = [function] := by
  have hperm := table.inOrder_perm.filter (·.name == name)
  rw [h.filter_eq hget] at hperm
  exact List.perm_singleton.mp hperm

theorem pairwise_inOrder (table : FunctionTable) :
    table.inOrder.Pairwise fun first second => first.range.start ≤ second.range.start := by
  have hsorted := @List.pairwise_mergeSort FunctionSymbol
    (fun first second => decide (first.range.start ≤ second.range.start))
    (fun first second third h h' => by
      rw [decide_eq_true_iff] at *
      exact Std.le_trans h h')
    (fun first second => by
      rw [Bool.or_eq_true, decide_eq_true_iff, decide_eq_true_iff]
      exact Std.le_total) table.functions
  exact hsorted.imp fun h => of_decide_eq_true h

/-- Functions at different positions come in strict order. -/
theorem Separate.inOrder (h : table.Separate) :
    table.inOrder.Pairwise fun first second => first.range.start < second.range.start := by
  have hne : table.inOrder.Pairwise fun first second =>
      first.range.start ≠ second.range.start :=
    (table.inOrder_perm.pairwise_iff Ne.symm).mpr h
  exact (table.pairwise_inOrder.and hne).imp fun hboth => Std.lt_of_le_of_ne hboth.1 hboth.2

/-- There is one way to put functions at different positions in order. -/
theorem Separate.inOrder_eq (h : table.Separate) (hperm : other.functions.Perm table.functions) :
    other.inOrder = table.inOrder := by
  have hother : other.Separate := (hperm.pairwise_iff Ne.symm).mpr h
  refine List.Perm.eq_of_pairwise (fun first second _ _ hlt hlt' => ?_) hother.inOrder h.inOrder
    ((other.inOrder_perm.trans hperm).trans table.inOrder_perm.symm)
  exact absurd (Std.lt_trans hlt hlt') Std.lt_irrefl

end FunctionTable

/-! ## Signatures -/

namespace Symbols

variable {text : SourceText} {tree : SyntaxTree} {root : Node} {name : String} {signature : Focus}
  {function : FunctionSymbol}

/-- A function comes from a signature with its name. -/
theorem exists_signature
    (hmem : function ∈ (FunctionTable.ofList (functionsOf text tree)).functions) :
    ∃ signature ∈ signaturesOf text tree.root function.name,
      function? text signature = some function := by
  have hget := (FunctionTable.distinct_ofList _).get?_of_mem hmem
  rw [get?_functionsOf] at hget
  obtain ⟨signature, hlast, hfunction⟩ := Option.bind_eq_some_iff.mp hget
  exact ⟨signature, List.mem_of_getLast? hlast, hfunction⟩

/-- A signature with a name gives a function. -/
theorem exists_function (hmem : signature ∈ signaturesOf text root name) :
    ∃ function, function? text signature = some function := by
  have hname := beq_iff_eq.mp (List.mem_filter.mp hmem).2
  obtain ⟨identifier, hidentifier, -⟩ := Option.map_eq_some_iff.mp hname
  exact ⟨_, Option.map_eq_some_iff.mpr ⟨identifier, hidentifier, rfl⟩⟩

theorem visible_of_mem_signaturesOf (hmem : signature ∈ signaturesOf text root name) :
    signature ∈ (Focus.ofRoot root).visible :=
  (List.mem_filter.mp (List.mem_filter.mp hmem).1).1

variable {chars : List Char}

/-- Signatures come in the order of their starts. -/
theorem pairwise_signaturesOf (text : SourceText) (chars : List Char) (name : String) :
    (signaturesOf text (parse chars none).root name).Pairwise fun first second =>
      first.node.start.byte ≤ second.node.start.byte := by
  have hnodes : (Focus.ofRoot (parse chars none).root).node.descendants.Pairwise _ :=
    Node.pairwise_start_le fun _ hbelow => Parse.lined_of_mem hbelow
  rw [← Focus.descendants_node, List.pairwise_map] at hnodes
  refine hnodes.sublist (.trans ?_ (Focus.visible_sublist _))
  exact List.filter_sublist.trans List.filter_sublist

/-- The last signature with a name starts last. -/
theorem start_le_getLast {other : Focus}
    (hlast : (signaturesOf text (parse chars none).root name).getLast? = some signature)
    (hmem : other ∈ signaturesOf text (parse chars none).root name) :
    other.node.start.byte ≤ signature.node.start.byte := by
  obtain ⟨front, hsplit⟩ := List.getLast?_eq_some_iff.mp hlast
  have hpairwise := pairwise_signaturesOf text chars name
  rw [hsplit] at hpairwise hmem
  rcases List.mem_append.mp hmem with hmem | hmem
  · exact (List.pairwise_append.mp hpairwise).2.2 other hmem signature List.mem_cons_self
  · rw [List.mem_singleton.mp hmem]

/-- Functions of a text that start at one position have one name. -/
theorem name_eq_of_start {first second : Focus} {function other : FunctionSymbol}
    (hfirst : first ∈ (Focus.ofRoot (parse chars none).root).visible)
    (hsecond : second ∈ (Focus.ofRoot (parse chars none).root).visible)
    (hfunction : function? (.ofChars chars) first = some function)
    (hother : function? (.ofChars chars) second = some other)
    (hstart : function.range.start = other.range.start) : function.name = other.name := by
  obtain ⟨identifier, hidentifier, rfl⟩ := Option.map_eq_some_iff.mp hfunction
  obtain ⟨identifier', hidentifier', rfl⟩ := Option.map_eq_some_iff.mp hother
  have hmem := Parse.node_mem_descendants hfirst
  have hmem' := Parse.node_mem_descendants hsecond
  have hbyte := (Parse.ends_of_mem hmem).1.byte_eq (Parse.ends_of_mem hmem').1 hstart
  rw [Parse.firstName_eq hmem hmem' hbyte hidentifier hidentifier']

/-- The functions of a text start at different positions. -/
theorem separate_functionsOf (hroot : tree.root = (parse chars none).root) :
    (FunctionTable.ofList (functionsOf (.ofChars chars) tree)).Separate := by
  have hdistinct := FunctionTable.distinct_ofList (functionsOf (.ofChars chars) tree)
  refine List.Pairwise.imp_of_mem (fun {function other} hmem hmem' hne hstart => hne ?_) hdistinct
  obtain ⟨first, hfirst, hfunction⟩ := exists_signature hmem
  obtain ⟨second, hsecond, hother⟩ := exists_signature hmem'
  rw [hroot] at hfirst hsecond
  exact name_eq_of_start (visible_of_mem_signaturesOf hfirst)
    (visible_of_mem_signaturesOf hsecond) hfunction hother hstart

/-! ## Outlines -/

/-- Some functions are those of a tree: for every name of a signature just one, that of the last
signature with the name, and none for other names. They start further and further on. -/
structure Outlines (text : SourceText) (root : Node) (functions : List FunctionSymbol) : Prop where
  complete : ∀ name, signaturesOf text root name ≠ [] → ∃ signature function,
    (signaturesOf text root name).getLast? = some signature ∧
    (∀ other ∈ signaturesOf text root name, other.node.start.byte ≤ signature.node.start.byte) ∧
    function? text signature = some function ∧ functions.filter (·.name == name) = [function]
  sound : ∀ function ∈ functions, signaturesOf text root function.name ≠ []
  ascending : functions.Pairwise fun first second => first.range.start < second.range.start

/-- The functions of a text in the order of their starts are those of its tree. -/
theorem outlines (hroot : tree.root = (parse chars none).root) :
    Outlines (.ofChars chars) tree.root
      (FunctionTable.ofList (functionsOf (.ofChars chars) tree)).inOrder where
  complete name hne := by
    obtain ⟨signature, hlast⟩ := Option.isSome_iff_exists.mp (List.getLast?_isSome.mpr hne)
    obtain ⟨function, hfunction⟩ := exists_function (List.mem_of_getLast? hlast)
    refine ⟨signature, function, hlast, fun other hother => ?_, hfunction, ?_⟩
    · rw [hroot] at hother hlast
      exact start_le_getLast hlast hother
    · have hget := get?_functionsOf (.ofChars chars) tree name
      rw [hlast, Option.bind_some, hfunction] at hget
      exact (FunctionTable.distinct_ofList _).filter_inOrder hget
  sound function hmem := by
    obtain ⟨signature, hsignature, -⟩ :=
      exists_signature ((FunctionTable.inOrder_perm _).mem_iff.mp hmem)
    exact List.ne_nil_of_mem hsignature
  ascending := (separate_functionsOf hroot).inOrder

end Symbols

/-! ## Whole runs -/

namespace Workspace

/-- After any operations the functions of a document are those of its tree, each name once, and
their list is the same for every order that the table may keep them in. -/
theorem run_outlines (settings : Settings) (operations : List Operation) {uri : Uri}
    {document : Document} (hget : ((empty settings).run operations).get? uri = some document) :
    Symbols.Outlines document.text document.tree.root
        (((empty settings).run operations).functions uri) ∧
      ∀ table : FunctionTable, table.functions.Perm document.functions.functions →
        table.inOrder = ((empty settings).run operations).functions uri := by
  have hsynced := run_syncedBut settings operations
  have hmem := (get?_eq_some_iff.mp hget).1
  have hcurrent := hsynced.current document hmem
  have htable : document.functions
      = .ofList (Symbols.functionsOf (.ofChars document.text.chars) document.tree) := by
    rw [← hcurrent.indexed]
    exact hsynced.functions document hmem (by simp)
  have hfunctions : ((empty settings).run operations).functions uri
      = document.functions.inOrder := by
    rw [functions, hget]
  rw [hfunctions, htable]
  refine ⟨?_, fun table hperm => (Symbols.separate_functionsOf hcurrent.parsed).inOrder_eq hperm⟩
  rw [hcurrent.indexed]
  exact Symbols.outlines hcurrent.parsed

/-- A function whose type is a structure that declares another one, and one more of its name. -/
theorem run_outlines_nested :
    let uri : Uri := ⟨"file", some .empty, "/a.azsl", none, none⟩
    let workspace := (empty .standard).run
      [.opened .empty uri 1 "struct S \x7b void g(); \x7d f(); int g();".toList]
    ∃ document, workspace.get? uri = some document ∧
      Symbols.Outlines document.text document.tree.root (workspace.functions uri) ∧
      ∀ table : FunctionTable, table.functions.Perm document.functions.functions →
        table.inOrder = workspace.functions uri := by
  intro uri workspace
  obtain ⟨document, hget⟩ : ∃ document, workspace.get? uri = some document :=
    Option.isSome_iff_exists.mp (by decide +kernel)
  exact ⟨document, hget, run_outlines .standard _ hget⟩

end Workspace

end Azsl
