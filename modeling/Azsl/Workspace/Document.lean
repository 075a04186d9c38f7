/-
Azsl.Workspace.Document — a document, and lists of documents in order.

Documents are listed in the order of their identifiers, no two with the same one, so that an
include that several of them match always means the same one. `insertOrdered` puts a document in
its place, and `sorted_insertOrdered` says that the list stays in order.
-/
import Azsl.Grammar.Parse
import Azsl.Symbol.Collect
import Azsl.Uri.Basic

namespace Azsl

/-- A document: its text, tree and symbols. -/
structure Document where
  uri : Uri
  /-- The editor's version, or nothing for a document read from disk. -/
  version : Option Int
  text : SourceText
  tree : SyntaxTree
  functions : FunctionTable
  /-- The documents its includes mean, in the order in which they were found. -/
  includes : List Uri

/-- A change of a document's text. -/
inductive Change where
  | full (chars : List Char)
  | replace (range : Range) (chars : List Char)
deriving DecidableEq, Repr

namespace Document

/-- Add an include, unless it is there already. -/
def addInclude (document : Document) (uri : Uri) : Document :=
  if document.includes.contains uri then document
  else { document with includes := document.includes ++ [uri] }

@[simp] theorem addInclude_uri (document : Document) (uri : Uri) :
    (document.addInclude uri).uri = document.uri := by
  unfold addInclude
  split <;> rfl

/-- Replace a range of the text and bring the tree up to date. -/
def edit (document : Document) (version : Int) (range : Range) (chars : List Char) : Document :=
  let (text, edit) := document.text.applyChange range chars
  { document with
    version := some version
    text := text
    tree := parse text.chars (some (document.tree.edit edit)) }

end Document

/-! ## Documents in order -/

namespace Uri

theorem before_of_before {a b c : Uri} (h : a.before b = true) (h' : c.before b = false) :
    a.before c = true := by
  simp only [before, decide_eq_true_eq, decide_eq_false_iff_not, String.not_lt] at h h' ⊢
  exact Std.lt_of_lt_of_le h h'

theorem before_asymm {a b : Uri} (h : a.before b = true) : b.before a = false := by
  simp only [before, decide_eq_true_eq, decide_eq_false_iff_not, String.not_lt] at h ⊢
  exact Std.le_of_lt h

theorem before_irrefl (a : Uri) : a.before a = false := by
  simp [before]

end Uri

namespace Workspace

/-- Documents in the order of their identifiers, no two with the same one. -/
def Sorted (documents : List Document) : Prop :=
  documents.Pairwise fun first second =>
    first.uri ≠ second.uri ∧ second.uri.before first.uri = false

/-- Sorting only depends on the identifiers. -/
theorem Sorted.map {documents : List Document} (h : Sorted documents) {f : Document → Document}
    (hf : ∀ document, (f document).uri = document.uri) : Sorted (documents.map f) := by
  refine List.pairwise_map.mpr (h.imp fun {first second} hapart => ?_)
  rw [hf, hf]
  exact hapart

/-- Put a document among others in the order of identifiers, in place of one with the same. -/
def insertOrdered (document : Document) : List Document → List Document
  | [] => [document]
  | first :: rest =>
    if first.uri = document.uri then document :: rest
    else if document.uri.before first.uri then document :: first :: rest
    else first :: insertOrdered document rest

/-- A document put in takes the place of the one with its identifier. -/
theorem mem_insertOrdered {documents : List Document} (h : Sorted documents)
    {document other : Document} :
    other ∈ insertOrdered document documents ↔
      other = document ∨ other ∈ documents ∧ other.uri ≠ document.uri := by
  induction documents with
  | nil => simp [insertOrdered]
  | cons first rest ih =>
    obtain ⟨hfirst, hrest⟩ := List.pairwise_cons.mp h
    rw [insertOrdered]
    split
    · rename_i hsame
      have hothers : other ∈ rest → other.uri ≠ document.uri := fun hmem heq =>
        (hfirst other hmem).1 (hsame.trans heq.symm)
      simp only [List.mem_cons]
      constructor
      · rintro (rfl | hmem)
        · exact .inl rfl
        · exact .inr ⟨.inr hmem, hothers hmem⟩
      · rintro (rfl | ⟨rfl | hmem, hne⟩)
        · exact .inl rfl
        · exact absurd hsame hne
        · exact .inr hmem
    · rename_i hsame
      split
      · rename_i hbefore
        have hothers : other ∈ first :: rest → other.uri ≠ document.uri := by
          intro hmem heq
          rcases List.mem_cons.mp hmem with rfl | hmem
          · exact hsame heq
          · have hlate := Uri.before_of_before hbefore (hfirst other hmem).2
            rw [heq, Uri.before_irrefl] at hlate
            cases hlate
        rw [List.mem_cons]
        exact or_congr_right ⟨fun hmem => ⟨hmem, hothers hmem⟩, And.left⟩
      · rw [List.mem_cons, ih hrest, List.mem_cons]
        constructor
        · rintro (rfl | rfl | ⟨hmem, hne⟩)
          · exact .inr ⟨.inl rfl, hsame⟩
          · exact .inl rfl
          · exact .inr ⟨.inr hmem, hne⟩
        · rintro (rfl | ⟨rfl | hmem, hne⟩)
          · exact .inr (.inl rfl)
          · exact .inl rfl
          · exact .inr (.inr ⟨hmem, hne⟩)

theorem sorted_insertOrdered {documents : List Document} (h : Sorted documents)
    (document : Document) : Sorted (insertOrdered document documents) := by
  induction documents with
  | nil => exact List.pairwise_singleton _ _
  | cons first rest ih =>
    obtain ⟨hfirst, hrest⟩ := List.pairwise_cons.mp h
    rw [insertOrdered]
    split
    · rename_i hsame
      rw [hsame] at hfirst
      exact .cons hfirst hrest
    · rename_i hsame
      split
      · rename_i hbefore
        refine .cons (fun other hmem => ?_) h
        rcases List.mem_cons.mp hmem with rfl | hmem
        · exact ⟨fun heq => hsame heq.symm, Uri.before_asymm hbefore⟩
        · have hlate := Uri.before_of_before hbefore (hfirst other hmem).2
          refine ⟨fun heq => ?_, Uri.before_asymm hlate⟩
          rw [heq, Uri.before_irrefl] at hlate
          cases hlate
      · rename_i hbefore
        refine .cons (fun other hmem => ?_) (ih hrest)
        rcases (mem_insertOrdered hrest).mp hmem with rfl | ⟨hmem, -⟩
        · exact ⟨hsame, by simpa using hbefore⟩
        · exact hfirst other hmem

end Workspace

end Azsl
