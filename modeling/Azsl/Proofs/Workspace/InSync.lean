/-
Azsl.Proofs.Workspace.InSync — documents never go out of step with their texts.

Between operations every document has the index of lines, the tree and the functions that its
text has on its own (`run_inSync`). A document that has been loaded or edited keeps its old
functions for a while, but then it is among those that are still to be analysed.
-/
import Azsl.Proofs.Parse.Incremental
import Azsl.Proofs.Workspace.Run

namespace Azsl

/-! ## Texts and trees -/

namespace Document

/-- The index of lines and the tree are those that the text has on its own. -/
structure Current (document : Document) : Prop where
  indexed : document.text = .ofChars document.text.chars
  parsed : document.tree.root = (parse document.text.chars none).root

/-- Everything known about a document is what its text has on its own. -/
structure InSync (document : Document) : Prop where
  lines : document.text.starts = lineStarts document.text.chars
  outline : document.tree.root.outline = (parse document.text.chars none).root.outline
  functions : document.functions
    = .ofList (Symbols.collect document.text (parse document.text.chars none)).functions

theorem Current.collect {document : Document} (h : document.Current) :
    Symbols.collect document.text document.tree
      = Symbols.collect document.text (parse document.text.chars none) := by
  simp only [Symbols.collect, Symbols.functionsOf, Symbols.includesOf, h.parsed]

/-- An edit brings the tree up to date. -/
theorem Current.edit {document : Document} (h : document.Current) (version : Int) (range : Range)
    (chars : List Char) : (document.edit version range chars).Current := by
  have hkept : (Revision.mk document.text document.tree).Kept :=
    Revision.kept_of_root h.indexed h.parsed
  exact ⟨(hkept.replace range chars).indexed, (hkept.replace range chars).reparse_root⟩

end Document

namespace Workspace

/-! ## The invariant -/

/-- All documents have the trees of their texts, and all but some have the functions too. -/
structure SyncedBut (workspace : Workspace) (queue : List Uri) : Prop where
  current : ∀ document ∈ workspace.documents, document.Current
  functions : ∀ document ∈ workspace.documents, document.uri ∉ queue →
    document.functions = .ofList (Symbols.collect document.text document.tree).functions

namespace SyncedBut

variable {workspace : Workspace} {queue : List Uri}

/-- Putting a document in is harmless as long as it is analysed later. -/
theorem put (h : workspace.SyncedBut queue) {document : Document} (hcurrent : document.Current) :
    (workspace.put document).SyncedBut (queue ++ [document.uri]) where
  current other hmem := by
    rcases mem_put.mp hmem with rfl | ⟨hmem, -⟩
    · exact hcurrent
    · exact h.current other hmem
  functions other hmem hqueue := by
    simp only [List.mem_append, List.mem_singleton, not_or] at hqueue
    rcases mem_put.mp hmem with rfl | ⟨hmem, -⟩
    · exact absurd rfl hqueue.2
    · exact h.functions other hmem hqueue.1

theorem analyze {uri : Uri} (h : workspace.SyncedBut (uri :: queue)) :
    (workspace.analyzeDocument uri).1.SyncedBut queue where
  current document hmem := by
    obtain ⟨old, hold, functions, includes, rfl, -⟩ := mem_analyzeDocument hmem
    exact ⟨(h.current old hold).indexed, (h.current old hold).parsed⟩
  functions document hmem hqueue := by
    obtain ⟨old, hold, functions, includes, rfl, hfunctions⟩ := mem_analyzeDocument hmem
    split at hfunctions
    · exact hfunctions
    · rename_i hne
      rw [hfunctions]
      refine h.functions old hold fun hmem => ?_
      rcases List.mem_cons.mp hmem with heq | hmem
      · exact hne heq
      · exact hqueue hmem

theorem clear (h : workspace.SyncedBut queue) (uri : Uri) :
    (workspace.cleared uri).SyncedBut queue where
  current document hmem := by
    obtain ⟨old, hold, includes, rfl⟩ := mem_cleared hmem
    exact ⟨(h.current old hold).indexed, (h.current old hold).parsed⟩
  functions document hmem hqueue := by
    obtain ⟨old, hold, includes, rfl⟩ := mem_cleared hmem
    exact h.functions old hold hqueue

theorem close (h : workspace.SyncedBut queue) (uri : Uri) :
    ((workspace.erase uri).withdraw uri).SyncedBut queue where
  current document hmem := h.current document (mem_erase.mp hmem).1
  functions document hmem := h.functions document (mem_erase.mp hmem).1

end SyncedBut

theorem syncedBut_empty (settings : Settings) : (empty settings).SyncedBut [] where
  current _ hmem := by cases hmem
  functions _ hmem := by cases hmem

theorem syncedBut_invariant : Invariant (fun _ => True) SyncedBut where
  empty _ := syncedBut_empty _
  weaken h hsubset := ⟨h.current, fun document hmem hqueue =>
    h.functions document hmem fun hmem => hqueue (hsubset hmem)⟩
  load _ _ _ h := h.put ⟨rfl, rfl⟩
  edit version range chars h hget := by
    obtain ⟨hmem, rfl⟩ := get?_eq_some_iff.mp hget
    exact h.put ((h.current _ hmem).edit version range chars)
  analyze h _ := h.analyze
  clear h _ := h.clear _
  missing _ h := ⟨h.current, h.functions⟩
  close h := h.close _
  configure h _ := ⟨h.current, h.functions⟩
  reset _ := syncedBut_empty _

/-! ## Whole runs -/

theorem SyncedBut.apply {workspace : Workspace} (h : workspace.SyncedBut [])
    (operation : Operation) : (workspace.apply operation).SyncedBut [] := by
  have hany : operation.Within fun _ => True := by cases operation <;> exact trivial
  exact syncedBut_invariant.apply h hany

/-- Every document of a workspace is in sync with its text. -/
def InSync (workspace : Workspace) : Prop :=
  ∀ document ∈ workspace.documents, document.InSync

theorem run_syncedBut (settings : Settings) (operations : List Operation) :
    ((empty settings).run operations).SyncedBut [] := by
  have hany : ∀ operation ∈ operations, operation.Within fun _ => True := by
    intro operation _
    cases operation <;> exact trivial
  exact syncedBut_invariant.run (syncedBut_empty settings) hany

/-- After any operations every document is in sync with its text. -/
theorem run_inSync (settings : Settings) (operations : List Operation) :
    ((empty settings).run operations).InSync := by
  have hsynced := run_syncedBut settings operations
  intro document hmem
  have hcurrent := hsynced.current document hmem
  refine ⟨?_, congrArg Node.outline hcurrent.parsed, ?_⟩
  · rw [hcurrent.indexed]
    rfl
  · rw [hsynced.functions document hmem (by simp), hcurrent.collect]

end Workspace

end Azsl
