/-
Azsl.Proofs.Workspace.Pending — the list of pending includes is exact.

As long as every document may end a wait, no include is lost and none waits for a document that
is there (`run_pendingExact`). A document that has been loaded but not analysed is exempt: its
own includes are not looked up yet, and it has not been given to those that wait for it.
-/
import Azsl.Proofs.Workspace.Waiting

namespace Azsl

/-- One of the documents that a document includes is what an include of it stands for. -/
def Document.Includes (document : Document) (path : String) : Prop :=
  (Include.isRelative path = true ∧
    ∃ target ∈ document.includes, Include.resolveRelative document.uri path = .ok target) ∨
  ∃ target ∈ document.includes, Include.isMatch target path = true

theorem Document.Includes.mono {document other : Document} {path : String}
    (h : document.Includes path) (huri : other.uri = document.uri)
    (hincludes : document.includes ⊆ other.includes) : other.Includes path := by
  rcases h with ⟨hrelative, target, hmem, hresolve⟩ | ⟨target, hmem, hmatch⟩
  · exact .inl ⟨hrelative, target, hincludes hmem, by rw [huri, hresolve]⟩
  · exact .inr ⟨target, hincludes hmem, hmatch⟩

namespace Workspace

/-! ## The invariant -/

/-- Every include of a document is found or waited for, except for documents still to be
analysed. -/
structure WaitingBut (workspace : Workspace) (queue : List Uri) : Prop where
  unrestricted : workspace.settings.retryExtensions = []
  tidy : workspace.Tidy
  stored : ∀ {path owner}, workspace.Waits path owner → workspace.contains owner = true
  written : ∀ document ∈ workspace.documents, document.uri ∉ queue →
    ∀ {path}, workspace.Waits path document.uri → path ∈ document.includePaths
  kept : ∀ document ∈ workspace.documents, document.uri ∉ queue →
    ∀ path ∈ document.includePaths, workspace.Waits path document.uri ∨ document.Includes path
  unserved : ∀ {path owner}, workspace.Waits path owner → Include.isRelative path = false →
    ∀ other, workspace.contains other = true → other ∉ queue → other ≠ owner →
      Include.isMatch other path = false

namespace WaitingBut

variable {workspace : Workspace} {queue : List Uri} {uri : Uri}

theorem mayResolve (h : workspace.WaitingBut queue) (uri : Uri) :
    workspace.settings.mayResolve uri = true := by
  simp [Settings.mayResolve, h.unrestricted]

theorem weaken (h : workspace.WaitingBut queue) {others : List Uri} (hsubset : queue ⊆ others) :
    workspace.WaitingBut others :=
  { h with
    written := fun document hmem hqueue => h.written document hmem (mt (@hsubset _) hqueue)
    kept := fun document hmem hqueue => h.kept document hmem (mt (@hsubset _) hqueue)
    unserved := fun hwaits hrelative other hother hqueue =>
      h.unserved hwaits hrelative other hother (mt (@hsubset _) hqueue) }

/-- Putting a document in is harmless as long as it is analysed later. -/
theorem put (h : workspace.WaitingBut queue) (document : Document) :
    (workspace.put document).WaitingBut (queue ++ [document.uri]) := by
  have hold : ∀ other ∈ (workspace.put document).documents,
      other.uri ∉ queue ++ [document.uri] → other ∈ workspace.documents ∧ other.uri ∉ queue := by
    intro other hmem hqueue
    simp only [List.mem_append, List.mem_singleton, not_or] at hqueue
    rcases mem_put.mp hmem with rfl | ⟨hmem, -⟩
    · exact absurd rfl hqueue.2
    · exact ⟨hmem, hqueue.1⟩
  refine
    { unrestricted := h.unrestricted
      tidy := ⟨h.tidy.paths, h.tidy.owned, h.tidy.owners⟩
      stored := fun hwaits => contains_put.mpr (.inr (h.stored hwaits))
      written := ?written
      kept := ?kept
      unserved := ?unserved }
  case written =>
    intro other hmem hqueue path hwaits
    obtain ⟨hmem, hqueue⟩ := hold other hmem hqueue
    exact h.written other hmem hqueue hwaits
  case kept =>
    intro other hmem hqueue path hpath
    obtain ⟨hmem, hqueue⟩ := hold other hmem hqueue
    exact h.kept other hmem hqueue path hpath
  case unserved =>
    intro path owner hwaits hrelative other hother hqueue hne
    simp only [List.mem_append, List.mem_singleton, not_or] at hqueue
    have hother := (contains_put.mp hother).resolve_left hqueue.2
    exact h.unserved hwaits hrelative other hother hqueue.1 hne

/-- A document that gains includes keeps what it has found, and what it does not wait for any
more is served by the new include. -/
theorem kept_of_gained (h : workspace.WaitingBut queue) {old document : Document}
    (hold : old ∈ workspace.documents) (hqueue : old.uri ∉ queue)
    (hdocument : document = { old with includes := document.includes })
    (hincludes : ∀ target, target ∈ document.includes ↔ target ∈ old.includes ∨
      target = uri ∧ ∃ path, workspace.Waits path old.uri ∧ Include.isMatch uri path = true)
    {path : String} (hpath : path ∈ document.includePaths) :
    workspace.Waits path document.uri ∧ Include.isMatch uri path = false ∨
      document.Includes path := by
  have huri : document.uri = old.uri := by rw [hdocument]
  have hpath' : path ∈ old.includePaths := by
    rw [hdocument] at hpath
    exact hpath
  rcases h.kept old hold hqueue path hpath' with hwaits | hfound
  · cases hmatch : Include.isMatch uri path with
    | false => exact .inl ⟨huri ▸ hwaits, rfl⟩
    | true =>
      have hmem := (hincludes uri).mpr (.inr ⟨rfl, path, hwaits, hmatch⟩)
      exact .inr (.inr ⟨uri, hmem, hmatch⟩)
  · exact .inr (hfound.mono huri fun target hmem => (hincludes target).mpr (.inl hmem))

/-- An analysed document has found what its includes stand for, or waits for it. -/
theorem kept_of_analyzed (h : workspace.WaitingBut queue) {document analyzed : Document}
    (hget : workspace.get? uri = some document)
    (hmem : analyzed ∈ (workspace.analyzeDocument uri).1.documents) (heq : analyzed.uri = uri)
    {path : String} (hpath : path ∈ document.includePaths) :
    (workspace.analyzeDocument uri).1.Waits path analyzed.uri ∨ analyzed.Includes path := by
  cases hresolve : workspace.resolveInclude? uri path with
  | none =>
    exact .inl ((waits_analyzeDocument (h.mayResolve uri) hget).mpr
      (.inr ⟨hpath, hresolve, heq⟩))
  | some target =>
    have htarget := (mem_includes_analyzed hget hmem heq target).mpr
      ⟨path, hpath, hresolve⟩
    cases hrelative : Include.isRelative path with
    | true =>
      rw [resolveInclude?_of_relative hrelative] at hresolve
      exact .inr (.inl ⟨hrelative, target, htarget, by rw [heq, hresolve]⟩)
    | false =>
      have hmatch := (match_of_resolveInclude? hrelative hresolve).2.2
      exact .inr (.inr ⟨target, htarget, hmatch⟩)

theorem analyze (h : workspace.WaitingBut (uri :: queue))
    (hcontains : workspace.contains uri = true) :
    (workspace.analyzeDocument uri).1.WaitingBut queue := by
  obtain ⟨document, hget⟩ := Option.isSome_iff_exists.mp hcontains
  obtain ⟨hdocument, huri⟩ := get?_eq_some_iff.mp hget
  have hmay := h.mayResolve uri
  have hwaits : ∀ {path owner}, (workspace.analyzeDocument uri).1.Waits path owner ↔ _ :=
    waits_analyzeDocument hmay hget
  have hpaths : ∀ analyzed ∈ (workspace.analyzeDocument uri).1.documents, analyzed.uri = uri →
      analyzed.includePaths = document.includePaths := by
    intro analyzed hmem heq
    obtain ⟨old, hold, functions, includes, rfl, -⟩ := mem_analyzeDocument hmem
    rw [← workspace.sorted.eq_of_uri_eq hold hdocument (heq.trans huri.symm)]
    rfl
  refine
    { unrestricted := by rw [analyzeDocument_settings, h.unrestricted]
      tidy := h.tidy.analyzeDocument uri
      stored := ?stored
      written := ?written
      kept := ?kept
      unserved := ?unserved }
  case stored =>
    intro path owner hafter
    rw [contains_analyzeDocument]
    rcases hwaits.mp hafter with ⟨hbefore, -⟩ | ⟨-, -, rfl⟩
    · exact h.stored hbefore
    · exact hcontains
  case written =>
    intro analyzed hmem hqueue path hafter
    rcases hwaits.mp hafter with ⟨hbefore, hne, -⟩ | ⟨hpath, -, heq⟩
    · obtain ⟨old, hold, hother, -⟩ := mem_includes_other hmay hmem hne
      rw [hother] at hne hqueue hbefore ⊢
      exact h.written old hold (by simpa using ⟨hne, hqueue⟩) hbefore
    · rw [hpaths analyzed hmem heq]
      exact hpath
  case kept =>
    intro analyzed hmem hqueue path hpath
    by_cases heq : analyzed.uri = uri
    · rw [hpaths analyzed hmem heq] at hpath
      exact h.kept_of_analyzed hget hmem heq hpath
    · obtain ⟨old, hold, hother, hincludes⟩ := mem_includes_other hmay hmem heq
      have huri' : analyzed.uri = old.uri := by rw [hother]
      have hqueue' : old.uri ∉ uri :: queue := by
        rw [← huri']
        simpa using ⟨heq, hqueue⟩
      refine (h.kept_of_gained hold hqueue' hother hincludes hpath).imp_left fun hbefore => ?_
      exact hwaits.mpr (.inl ⟨hbefore.1, heq, hbefore.2⟩)
  case unserved =>
    intro path owner hafter hrelative other hother hqueue hne
    rw [contains_analyzeDocument] at hother
    rcases hwaits.mp hafter with ⟨hbefore, -, hmatch⟩ | ⟨-, hnone, rfl⟩
    · by_cases heq : other = uri
      · rw [heq, hmatch]
      · exact h.unserved hbefore hrelative other hother (by simpa using ⟨heq, hqueue⟩) hne
    · exact (resolveInclude?_eq_none hrelative).mp hnone other hother hne

/-- Giving a document that is not there to those that wait for it is harmless. -/
theorem clear (h : workspace.WaitingBut queue) (hcontains : workspace.contains uri = false) :
    (workspace.cleared uri).WaitingBut queue := by
  have hmay := h.mayResolve uri
  have hne : ∀ document ∈ (workspace.cleared uri).documents, document.uri ≠ uri := by
    rintro document hmem rfl
    rw [← contains_cleared workspace document.uri,
      contains_iff.mpr ⟨document, hmem, rfl⟩] at hcontains
    cases hcontains
  refine
    { unrestricted := by rw [cleared_settings, h.unrestricted]
      tidy := h.tidy.cleared uri
      stored := ?stored
      written := ?written
      kept := ?kept
      unserved := ?unserved }
  case stored =>
    intro path owner hwaits
    rw [contains_cleared]
    exact h.stored ((waits_cleared hmay).mp hwaits).1
  case written =>
    intro document hmem hqueue path hwaits
    obtain ⟨old, hold, hdocument, -⟩ := mem_includes_cleared hmay hmem (hne document hmem)
    rw [hdocument] at hqueue hwaits ⊢
    exact h.written old hold hqueue ((waits_cleared hmay).mp hwaits).1
  case kept =>
    intro document hmem hqueue path hpath
    obtain ⟨old, hold, hdocument, hincludes⟩ :=
      mem_includes_cleared hmay hmem (hne document hmem)
    have hqueue' : old.uri ∉ queue := by
      rw [hdocument] at hqueue
      exact hqueue
    refine (h.kept_of_gained hold hqueue' hdocument hincludes hpath).imp_left fun hwaits => ?_
    exact (waits_cleared hmay).mpr ⟨hwaits.1, hne document hmem, hwaits.2⟩
  case unserved =>
    intro path owner hwaits hrelative other hother hqueue hother'
    rw [contains_cleared] at hother
    exact h.unserved ((waits_cleared hmay).mp hwaits).1 hrelative other hother hqueue hother'

/-- A document that is forgotten waits for nothing, and others do not wait longer for it. -/
theorem close (h : workspace.WaitingBut queue) (uri : Uri) :
    ((workspace.erase uri).withdraw uri).WaitingBut queue := by
  have hcontains : ∀ other, ((workspace.erase uri).withdraw uri).contains other = true ↔
      workspace.contains other = true ∧ other ≠ uri := by
    intro other
    simp only [contains_iff, withdraw_documents, mem_erase]
    constructor
    · rintro ⟨document, ⟨hmem, hne⟩, rfl⟩
      exact ⟨⟨document, hmem, rfl⟩, hne⟩
    · rintro ⟨⟨document, hmem, rfl⟩, hne⟩
      exact ⟨document, ⟨hmem, hne⟩, rfl⟩
  have hwaits : ∀ {path owner}, ((workspace.erase uri).withdraw uri).Waits path owner ↔
      workspace.Waits path owner ∧ owner ≠ uri := waits_withdraw
  have htidy : (workspace.erase uri).Tidy := ⟨h.tidy.paths, h.tidy.owned, h.tidy.owners⟩
  refine
    { unrestricted := h.unrestricted
      tidy := htidy.withdraw uri
      stored := ?stored
      written := fun document hmem hqueue _ hwait =>
        h.written document (mem_erase.mp hmem).1 hqueue (hwaits.mp hwait).1
      kept := ?kept
      unserved := ?unserved }
  case stored =>
    intro path owner hwait
    obtain ⟨hwait, hne⟩ := hwaits.mp hwait
    exact (hcontains owner).mpr ⟨h.stored hwait, hne⟩
  case kept =>
    intro document hmem hqueue path hpath
    obtain ⟨hmem, hne⟩ := mem_erase.mp hmem
    exact (h.kept document hmem hqueue path hpath).imp_left fun hwait => hwaits.mpr ⟨hwait, hne⟩
  case unserved =>
    intro path owner hwait hrelative other hother hqueue hne
    exact h.unserved (hwaits.mp hwait).1 hrelative other ((hcontains other).mp hother).1 hqueue hne

end WaitingBut

theorem waitingBut_empty {settings : Settings} (h : settings.retryExtensions = []) :
    (empty settings).WaitingBut [] := by
  have hnone : ∀ {path owner}, ¬ (empty settings).Waits path owner := by
    rintro path owner ⟨entry, hentry, -⟩
    cases hentry
  refine ⟨h, tidy_empty settings, ?_, ?_, ?_, ?_⟩
  · intro path owner hwaits
    exact absurd hwaits hnone
  · intro document hmem
    cases hmem
  · intro document hmem
    cases hmem
  · intro path owner hwaits
    exact absurd hwaits hnone

theorem waitingBut_invariant : Invariant (·.retryExtensions = []) WaitingBut where
  empty h := waitingBut_empty h
  weaken h hsubset := h.weaken hsubset
  load _ _ _ h := h.put _
  edit _ _ _ h hget := by
    obtain ⟨-, rfl⟩ := get?_eq_some_iff.mp hget
    exact h.put _
  analyze h hcontains := h.analyze hcontains
  clear h hcontains := h.clear hcontains
  missing _ h := { h with tidy := ⟨h.tidy.paths, h.tidy.owned, h.tidy.owners⟩ }
  close h := h.close _
  configure h hsettings :=
    { h with unrestricted := hsettings, tidy := ⟨h.tidy.paths, h.tidy.owned, h.tidy.owners⟩ }
  reset h := waitingBut_empty h.unrestricted

/-! ## Whole runs -/

/-- What the list of pending includes says is exactly what is so. -/
structure PendingExact (workspace : Workspace) : Prop where
  paths : (workspace.pending.map (·.path)).Nodup
  owned : ∀ entry ∈ workspace.pending, entry.owners ≠ []
  once : ∀ entry ∈ workspace.pending, entry.owners.Nodup
  /-- An owner is a document, and the include is in its tree outside of errors. -/
  written : ∀ entry ∈ workspace.pending, ∀ owner ∈ entry.owners,
    ∃ document, workspace.get? owner = some document ∧
      ∃ file ∈ document.tree.root.visible, file.kind = .includeFile ∧
        Symbols.sourceOf document.text file = entry.path
  /-- No include is lost. -/
  kept : ∀ document ∈ workspace.documents, ∀ path ∈ document.includePaths,
    (∃ entry ∈ workspace.pending, entry.path = path ∧ document.uri ∈ entry.owners) ∨
      document.Includes path
  /-- No include waits for a document that is there. -/
  unserved : ∀ entry ∈ workspace.pending, Include.isRelative entry.path = false →
    ∀ owner ∈ entry.owners, ∀ document ∈ workspace.documents, document.uri ≠ owner →
      Include.isMatch document.uri entry.path = false

/-- Includes are read off the tree outside of errors. -/
theorem exists_of_mem_includePaths {document : Document} {path : String}
    (h : path ∈ document.includePaths) :
    ∃ file ∈ document.tree.root.visible, file.kind = .includeFile ∧
      Symbols.sourceOf document.text file = path := by
  obtain ⟨symbol, hsymbol, rfl⟩ := List.mem_map.mp h
  obtain ⟨file, hfile, hsome⟩ := List.mem_filterMap.mp hsymbol
  obtain ⟨hvisible, hkind⟩ := List.mem_filter.mp hfile
  simp only at hsome
  split at hsome
  · cases hsome
  · obtain rfl := Option.some.inj hsome
    exact ⟨file, hvisible, by simpa using hkind, rfl⟩

/-- After any operations under settings that let every document end a wait, the list of pending
includes is exact. -/
theorem run_pendingExact {settings : Settings} (hsettings : settings.retryExtensions = [])
    {operations : List Operation}
    (hoperations : ∀ operation ∈ operations, operation.Within (·.retryExtensions = [])) :
    ((empty settings).run operations).PendingExact := by
  have h := waitingBut_invariant.run (waitingBut_empty hsettings) hoperations
  generalize (empty settings).run operations = workspace at h
  have hwaits : ∀ entry ∈ workspace.pending, ∀ owner ∈ entry.owners,
      workspace.Waits entry.path owner := fun entry hentry owner howner =>
    ⟨entry, hentry, rfl, howner⟩
  refine ⟨h.tidy.paths, h.tidy.owned, h.tidy.owners, ?_, ?_, ?_⟩
  · intro entry hentry owner howner
    have hwait := hwaits entry hentry owner howner
    obtain ⟨document, hmem, rfl⟩ := contains_iff.mp (h.stored hwait)
    refine ⟨document, get?_eq_some_iff.mpr ⟨hmem, rfl⟩, ?_⟩
    exact exists_of_mem_includePaths (h.written document hmem (by simp) hwait)
  · intro document hmem path hpath
    exact h.kept document hmem (by simp) path hpath
  · intro entry hentry hrelative owner howner document hmem hne
    exact h.unserved (hwaits entry hentry owner howner) hrelative document.uri
      (contains_iff.mpr ⟨document, hmem, rfl⟩) (by simp) hne

/-- A document that includes one that comes later, and itself. -/
def waitingOperations : List Operation :=
  [.opened .empty ⟨"file", some .empty, "/a.azsl", none, none⟩ 1
      "#include \"b.azsli\"\n#include \"a.azsl\"\n".toList,
    .configured { Settings.standard with evictOnClose := true },
    .opened .empty ⟨"file", some .empty, "/lib/b.azsli", none, none⟩ 1 "void f();\n".toList,
    .closed ⟨"file", some .empty, "/lib/b.azsli", none, none⟩]

theorem pendingExact_waitingOperations :
    Settings.standard.retryExtensions = [] ∧
      (∀ operation ∈ waitingOperations, operation.Within (·.retryExtensions = [])) ∧
      ((empty .standard).run waitingOperations).PendingExact := by
  have hsettings : Settings.standard.retryExtensions = [] := rfl
  have hoperations : ∀ operation ∈ waitingOperations,
      operation.Within (·.retryExtensions = []) := by
    simp [waitingOperations, Operation.Within, Settings.standard]
  exact ⟨hsettings, hoperations, run_pendingExact hsettings hoperations⟩

end Workspace

end Azsl
