/-
Azsl.Proofs.Workspace.Documents — the documents of a workspace as a table.

A workspace carries the order of its documents with it (`Workspace.sorted`), no two with the same
identifier. So a document is found by its identifier exactly if it is in the list, and putting one
in replaces at most one.
What the steps of an analysis do to documents is said here once: only includes and functions
change, and the identifiers stay the same.
-/
import Azsl.Workspace.Analysis
import Mathlib.Data.List.Nodup

namespace Azsl

namespace Workspace

/-! ## Documents in order -/

namespace Sorted

variable {documents : List Document}

theorem nodup (h : Sorted documents) : (documents.map (·.uri)).Nodup :=
  List.pairwise_map.mpr (h.imp And.left)

theorem eq_of_uri_eq (h : Sorted documents) {first second : Document} (hfirst : first ∈ documents)
    (hsecond : second ∈ documents) (heq : first.uri = second.uri) : first = second :=
  List.inj_on_of_nodup_map h.nodup hfirst hsecond heq

end Sorted

/-- A document with a new identifier joins the others. -/
theorem insertOrdered_perm {document : Document} {documents : List Document}
    (h : ∀ other ∈ documents, other.uri ≠ document.uri) :
    (insertOrdered document documents).Perm (document :: documents) := by
  induction documents with
  | nil => exact .refl _
  | cons first rest ih =>
    rw [insertOrdered, if_neg (h first List.mem_cons_self)]
    split
    · exact .refl _
    · exact ((ih fun other hmem => h other (List.mem_cons_of_mem _ hmem)).cons first).trans
        (.swap document first rest)

/-! ## Finding documents -/

variable {workspace : Workspace} {uri : Uri} {document : Document}

theorem get?_eq_some_iff :
    workspace.get? uri = some document ↔ document ∈ workspace.documents ∧ document.uri = uri := by
  constructor
  · intro hget
    exact ⟨List.mem_of_find?_eq_some hget, by simpa using List.find?_some hget⟩
  · rintro ⟨hmem, rfl⟩
    cases hget : workspace.get? document.uri with
    | none =>
      have hnone := List.find?_eq_none.mp hget document hmem
      simp at hnone
    | some found =>
      have huri : found.uri = document.uri := by simpa using List.find?_some hget
      rw [workspace.sorted.eq_of_uri_eq (List.mem_of_find?_eq_some hget) hmem huri]

theorem contains_iff :
    workspace.contains uri = true ↔ ∃ document ∈ workspace.documents, document.uri = uri := by
  simp [contains, get?]

theorem contains_iff_mem :
    workspace.contains uri = true ↔ uri ∈ workspace.documents.map (·.uri) := by
  rw [contains_iff, List.mem_map]

theorem get?_eq_none_iff : workspace.get? uri = none ↔ workspace.contains uri = false := by
  simp [contains]

/-- What became of a document, if there are still the same documents and each comes from one that
was there. -/
theorem exists_get?_of_origin {later : Workspace} {P : Document → Document → Prop}
    (hget : workspace.get? uri = some document)
    (hcontains : ∀ other, later.contains other = workspace.contains other)
    (horigin : ∀ found ∈ later.documents, ∃ old ∈ workspace.documents,
      found.uri = old.uri ∧ P old found) :
    ∃ found, later.get? uri = some found ∧ P document found := by
  obtain ⟨hmem, rfl⟩ := get?_eq_some_iff.mp hget
  have hstored : later.contains document.uri = true := by
    rw [hcontains, contains_iff]
    exact ⟨document, hmem, rfl⟩
  obtain ⟨found, hfound, huri⟩ := contains_iff.mp hstored
  obtain ⟨old, hold, hsame, hP⟩ := horigin found hfound
  obtain rfl := workspace.sorted.eq_of_uri_eq hold hmem (hsame.symm.trans huri)
  exact ⟨found, get?_eq_some_iff.mpr ⟨hfound, huri⟩, hP⟩

/-! ## Loading, removing and changing documents -/

theorem mem_put {other : Document} :
    other ∈ (workspace.put document).documents ↔
      other = document ∨ other ∈ workspace.documents ∧ other.uri ≠ document.uri :=
  mem_insertOrdered workspace.sorted

theorem get?_put (workspace : Workspace) (document : Document) (uri : Uri) :
    (workspace.put document).get? uri
      = if uri = document.uri then some document else workspace.get? uri := by
  ext found
  rw [get?_eq_some_iff, mem_put]
  split
  · rename_i heq
    subst heq
    constructor
    · rintro ⟨rfl | ⟨-, hne⟩, heq⟩
      · rfl
      · exact absurd heq hne
    · intro heq
      obtain rfl := Option.some.inj heq
      exact ⟨.inl rfl, rfl⟩
  · rename_i hne
    rw [get?_eq_some_iff]
    constructor
    · rintro ⟨rfl | ⟨hmem, -⟩, rfl⟩
      · exact absurd rfl hne
      · exact ⟨hmem, rfl⟩
    · rintro ⟨hmem, rfl⟩
      exact ⟨.inr ⟨hmem, hne⟩, rfl⟩

theorem get?_erase (workspace : Workspace) {uri other : Uri} (h : other ≠ uri) :
    (workspace.erase uri).get? other = workspace.get? other := by
  rw [get?, erase, List.find?_filter, get?]
  congr 1
  funext document
  by_cases heq : document.uri = other
  · simp [heq, h]
  · simp [heq]

theorem mem_load {version : Option Int} {chars : List Char} :
    document ∈ (workspace.load uri version chars).documents ↔
      document = { uri := uri
                   version := version
                   text := .ofChars chars
                   tree := parse chars none
                   functions := ((workspace.get? uri).map (·.functions)).getD .empty
                   includes := ((workspace.get? uri).map (·.includes)).getD [] } ∨
        document ∈ workspace.documents ∧ document.uri ≠ uri :=
  mem_put

theorem get?_load (workspace : Workspace) (uri : Uri) (version : Option Int) (chars : List Char) :
    (workspace.load uri version chars).get? uri = some
      { uri := uri
        version := version
        text := .ofChars chars
        tree := parse chars none
        functions := ((workspace.get? uri).map (·.functions)).getD .empty
        includes := ((workspace.get? uri).map (·.includes)).getD [] } := by
  rw [load, get?_put, if_pos rfl]

theorem get?_load_other (workspace : Workspace) {other : Uri} (hne : other ≠ uri)
    (version : Option Int) (chars : List Char) :
    (workspace.load uri version chars).get? other = workspace.get? other := by
  rw [load, get?_put, if_neg hne]

@[simp] theorem load_settings (uri : Uri) (version : Option Int) (chars : List Char) :
    (workspace.load uri version chars).settings = workspace.settings := rfl

theorem contains_put {other : Uri} :
    (workspace.put document).contains other = true ↔
      other = document.uri ∨ workspace.contains other = true := by
  simp only [contains_iff, mem_put]
  constructor
  · rintro ⟨found, rfl | ⟨hmem, -⟩, rfl⟩
    · exact .inl rfl
    · exact .inr ⟨found, hmem, rfl⟩
  · rintro (rfl | ⟨found, hmem, rfl⟩)
    · exact ⟨_, .inl rfl, rfl⟩
    · by_cases heq : found.uri = document.uri
      · exact ⟨_, .inl rfl, heq.symm⟩
      · exact ⟨found, .inr ⟨hmem, heq⟩, rfl⟩

theorem contains_load {other : Uri} {version : Option Int} {chars : List Char} :
    (workspace.load uri version chars).contains other = true ↔
      other = uri ∨ workspace.contains other = true :=
  contains_put

/-- A document that is loaded for the first time joins those that are there. -/
theorem load_uris_perm {version : Option Int} {chars : List Char}
    (hnew : workspace.contains uri = false) :
    ((workspace.load uri version chars).documents.map (·.uri)).Perm
      (uri :: workspace.documents.map (·.uri)) := by
  refine (insertOrdered_perm fun other hmem heq => ?_).map (·.uri)
  rw [contains_iff.mpr ⟨other, hmem, heq⟩] at hnew
  cases hnew

theorem mem_erase :
    document ∈ (workspace.erase uri).documents ↔
      document ∈ workspace.documents ∧ document.uri ≠ uri := by
  simp [erase]

theorem renew_documents (workspace : Workspace) (uri : Uri) (functions : FunctionTable)
    (includes : List Uri) : (workspace.renew uri functions includes).documents
      = workspace.documents.map fun document => if document.uri = uri then
          { document with functions := functions, includes := includes } else document := rfl

theorem mapDocuments_uris (workspace : Workspace) {f : Document → Document}
    (hf : ∀ document, (f document).uri = document.uri) :
    (workspace.mapDocuments f hf).documents.map (·.uri) = workspace.documents.map (·.uri) := by
  rw [mapDocuments, List.map_map]
  exact List.map_congr_left fun document _ => hf document

/-! ## Analysing one document -/

theorem withdraw_documents (workspace : Workspace) (uri : Uri) :
    (workspace.withdraw uri).documents = workspace.documents := rfl

theorem await_documents (workspace : Workspace) (path : String) (uri : Uri) :
    (workspace.await path uri).documents = workspace.documents := by
  unfold await
  split <;> rfl

theorem await_settings (workspace : Workspace) (path : String) (uri : Uri) :
    (workspace.await path uri).settings = workspace.settings := by
  unfold await
  split <;> rfl

/-- A document waits for some includes. -/
def awaitAll (workspace : Workspace) (paths : List String) (uri : Uri) : Workspace :=
  paths.foldl (fun w path => w.await path uri) workspace

theorem awaitAll_documents (workspace : Workspace) (paths : List String) (uri : Uri) :
    (workspace.awaitAll paths uri).documents = workspace.documents := by
  induction paths generalizing workspace with
  | nil => rfl
  | cons path rest ih => exact (ih _).trans (await_documents workspace path uri)

theorem awaitAll_settings (workspace : Workspace) (paths : List String) (uri : Uri) :
    (workspace.awaitAll paths uri).settings = workspace.settings := by
  induction paths generalizing workspace with
  | nil => rfl
  | cons path rest ih => exact (ih _).trans (await_settings workspace path uri)

theorem deliver_settings (workspace : Workspace) (uri : Uri) :
    (workspace.deliver uri).settings = workspace.settings := by
  unfold deliver
  split <;> rfl

/-- Delivering a document changes nothing but the includes of others. -/
theorem deliver_documents (workspace : Workspace) (uri : Uri) :
    ∃ gained : Uri → Bool, (workspace.deliver uri).documents = workspace.documents.map
      fun document => if gained document.uri then document.addInclude uri else document := by
  unfold deliver
  split
  · exact ⟨_, rfl⟩
  · exact ⟨fun _ => false, by simp⟩

theorem addInclude_eq (document : Document) (uri : Uri) :
    ∃ includes, document.addInclude uri = { document with includes := includes } := by
  unfold Document.addInclude
  split
  · exact ⟨document.includes, rfl⟩
  · exact ⟨_, rfl⟩

/-- The workspace in which the includes of a document are looked up. -/
def cleared (workspace : Workspace) (uri : Uri) : Workspace :=
  (workspace.withdraw uri).deliver uri

/-- What is found out about the includes of a document. -/
def resolution (workspace : Workspace) (document : Document) : Resolution :=
  (workspace.cleared document.uri).resolveAll document.uri
    (Symbols.collect document.text document.tree).includes

theorem cleared_settings (workspace : Workspace) (uri : Uri) :
    (workspace.cleared uri).settings = workspace.settings :=
  deliver_settings _ _

/-- Clearing changes nothing but the includes of documents. -/
theorem mem_cleared (h : document ∈ (workspace.cleared uri).documents) :
    ∃ old ∈ workspace.documents, ∃ includes, document = { old with includes := includes } := by
  obtain ⟨gained, hgained⟩ := deliver_documents (workspace.withdraw uri) uri
  rw [cleared, hgained, List.mem_map] at h
  obtain ⟨old, hold, rfl⟩ := h
  refine ⟨old, hold, ?_⟩
  split
  · exact addInclude_eq old uri
  · exact ⟨old.includes, rfl⟩

theorem cleared_uris (workspace : Workspace) (uri : Uri) :
    (workspace.cleared uri).documents.map (·.uri) = workspace.documents.map (·.uri) := by
  unfold cleared deliver
  split
  · exact mapDocuments_uris _ _
  · rfl

theorem contains_cleared (workspace : Workspace) (uri other : Uri) :
    (workspace.cleared uri).contains other = workspace.contains other := by
  rw [Bool.eq_iff_iff, contains_iff_mem, contains_iff_mem, cleared_uris]

theorem get?_cleared (hget : workspace.get? uri = some document) (other : Uri) :
    ∃ includes, (workspace.cleared other).get? uri
      = some { document with includes := includes } := by
  obtain ⟨found, hfound, includes, rfl⟩ := exists_get?_of_origin
    (P := fun old found => ∃ includes, found = { old with includes := includes }) hget
    (contains_cleared workspace other) fun found hmem => by
      obtain ⟨old, hold, includes, rfl⟩ := mem_cleared hmem
      exact ⟨old, hold, rfl, includes, rfl⟩
  exact ⟨includes, hfound⟩

theorem analyzeDocument_of_not_contains (h : workspace.contains uri = false) :
    workspace.analyzeDocument uri = (workspace.cleared uri, []) := by
  have hnone : (workspace.cleared uri).get? uri = none := by
    rw [get?_eq_none_iff, contains_cleared, h]
  rw [analyzeDocument, ← cleared, hnone]

/-- Analysing a document renews its functions and includes, and lets it wait for the includes
that are not found. -/
theorem analyzeDocument_eq (h : (workspace.cleared uri).get? uri = some document) :
    workspace.analyzeDocument uri =
      (((workspace.cleared uri).awaitAll (workspace.resolution document).unresolved uri).renew uri
          (.ofList (Symbols.collect document.text document.tree).functions)
          (workspace.resolution document).found,
        (workspace.resolution document).unresolved) := by
  have huri : document.uri = uri := by simpa using List.find?_some h
  rw [analyzeDocument, ← cleared, h, resolution, huri]
  rfl

theorem analyzeDocument_settings (workspace : Workspace) (uri : Uri) :
    (workspace.analyzeDocument uri).1.settings = workspace.settings := by
  cases hget : (workspace.cleared uri).get? uri with
  | none =>
    rw [get?_eq_none_iff, contains_cleared] at hget
    rw [analyzeDocument_of_not_contains hget]
    exact cleared_settings workspace uri
  | some document =>
    rw [analyzeDocument_eq hget]
    exact (awaitAll_settings _ _ _).trans (cleared_settings workspace uri)

theorem analyzeDocument_uris (workspace : Workspace) (uri : Uri) :
    (workspace.analyzeDocument uri).1.documents.map (·.uri) = workspace.documents.map (·.uri) := by
  cases hget : (workspace.cleared uri).get? uri with
  | none =>
    rw [get?_eq_none_iff, contains_cleared] at hget
    rw [analyzeDocument_of_not_contains hget]
    exact cleared_uris workspace uri
  | some document =>
    rw [analyzeDocument_eq hget, renew, mapDocuments_uris, awaitAll_documents, cleared_uris]

theorem contains_analyzeDocument (workspace : Workspace) (uri other : Uri) :
    (workspace.analyzeDocument uri).1.contains other = workspace.contains other := by
  rw [Bool.eq_iff_iff, contains_iff_mem, contains_iff_mem, analyzeDocument_uris]

/-- Analysing a document renews its functions, and leaves the texts, trees and functions of all
others. -/
theorem mem_analyzeDocument
    (hmem : document ∈ (workspace.analyzeDocument uri).1.documents) :
    ∃ old ∈ workspace.documents, ∃ functions includes,
      document = { old with functions := functions, includes := includes } ∧
        functions = if old.uri = uri
          then .ofList (Symbols.collect old.text old.tree).functions else old.functions := by
  cases hget : (workspace.cleared uri).get? uri with
  | none =>
    rw [get?_eq_none_iff, contains_cleared] at hget
    rw [analyzeDocument_of_not_contains hget] at hmem
    obtain ⟨old, hold, includes, rfl⟩ := mem_cleared hmem
    refine ⟨old, hold, old.functions, includes, rfl, ?_⟩
    rw [if_neg]
    rintro rfl
    rw [contains_iff.mpr ⟨old, hold, rfl⟩] at hget
    cases hget
  | some found =>
    rw [analyzeDocument_eq hget, renew_documents, awaitAll_documents, List.mem_map] at hmem
    obtain ⟨between, hbetween, rfl⟩ := hmem
    obtain ⟨old, hold, includes, rfl⟩ := mem_cleared hbetween
    refine ⟨old, hold, ?_⟩
    split
    · rename_i huri
      have hfound := get?_eq_some_iff.mp hget
      have hsame := (workspace.cleared uri).sorted.eq_of_uri_eq hbetween hfound.1
        (huri.trans hfound.2.symm)
      rw [← hsame]
      exact ⟨_, _, rfl, rfl⟩
    · exact ⟨_, _, rfl, rfl⟩

/-- Whatever document is analysed, the texts of documents stay. -/
theorem get?_analyzeDocument (hget : workspace.get? uri = some document) (other : Uri) :
    ∃ functions includes, (workspace.analyzeDocument other).1.get? uri
      = some { document with functions := functions, includes := includes } := by
  obtain ⟨found, hfound, functions, includes, rfl⟩ := exists_get?_of_origin
    (P := fun old found => ∃ functions includes,
      found = { old with functions := functions, includes := includes }) hget
    (contains_analyzeDocument workspace other) fun found hmem => by
      obtain ⟨old, hold, functions, includes, rfl, -⟩ := mem_analyzeDocument hmem
      exact ⟨old, hold, rfl, functions, includes, rfl⟩
  exact ⟨functions, includes, hfound⟩

end Workspace

end Azsl
