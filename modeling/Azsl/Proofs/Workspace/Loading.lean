/-
Azsl.Proofs.Workspace.Loading — what an analysis loads from disk ends the wait it was loaded for.

`loads` lists which include of which document brought in which file while an analysis ran: it is
the same analysis with a search that also writes down what it found (`traced`). If the include is
regular, the file is a document that the include means. It is analysed in the same run and given
to the document that waits, unless another file of the run has been given to it before
(`search_agrees`). `search_disagrees` shows both sides of the condition: an include with a doubled
slash loads a file and goes on waiting, and an include may be served by a file that was loaded for
another one.
-/
import Azsl.Proofs.Include.Search
import Azsl.Proofs.Workspace.Waiting
import Mathlib.Control.Monad.Writer

namespace Azsl

namespace Workspace

/-! ## What is loaded -/

/-- A file that an analysis brought in, with the include it was found for. -/
structure Loading where
  owner : Uri
  path : String
  target : Uri
deriving DecidableEq, Repr

/-- What looking for one include adds to the queue. -/
def brought (system : FileSystem) (analysis : Analysis) (path : String) : List Uri :=
  (search system analysis path).queue.drop analysis.queue.length

/-- Look for one include of a document, and list what that adds to the queue. -/
def traced (system : FileSystem) (owner : Uri) (analysis : Analysis) (path : String) :
    Writer (List Loading) Analysis :=
  .mk (pure (search system analysis path,
    (brought system analysis path).map (⟨owner, path, ·⟩)))

/-- What looking for the includes of a document brings in. -/
def searchLoads (system : FileSystem) (owner : Uri) (analysis : Analysis) (paths : List String) :
    List Loading :=
  (searchAllM (traced system owner) analysis paths).run.run.2

/-- What an analysis under way brings in. -/
def queueLoads (system : FileSystem) (fuel : Nat) (analysis : Analysis) : List Loading :=
  (analyzeQueueM (traced system) fuel analysis).run.run.2

theorem searchLoads_cons (system : FileSystem) (owner : Uri) (analysis : Analysis) (path : String)
    (rest : List String) : searchLoads system owner analysis (path :: rest)
      = if analysis.workspace.settings.maxDiskIncludes ≤ analysis.loaded then []
        else (brought system analysis path).map (⟨owner, path, ·⟩) ++
          searchLoads system owner (search system analysis path) rest := by
  rw [searchLoads, searchAllM_cons]
  split <;> rfl

/-- Listing what comes in changes nothing. -/
theorem searchAllM_traced (system : FileSystem) (owner : Uri) (analysis : Analysis)
    (paths : List String) : (searchAllM (traced system owner) analysis paths).run.run
      = (searchAll system analysis paths, searchLoads system owner analysis paths) := by
  refine Prod.ext (show _ = searchAll system analysis paths from ?_) rfl
  induction paths generalizing analysis with
  | nil => rfl
  | cons path rest ih =>
    rw [searchAll_cons, ← ih, searchAllM_cons]
    split <;> rfl

section Queue

variable (system : FileSystem) (fuel : Nat) {analysis : Analysis} {uri : Uri} {rest : List Uri}

theorem queueLoads_nil (hqueue : analysis.queue = []) :
    queueLoads system fuel analysis = [] := by
  rw [queueLoads, analyzeQueueM_nil _ fuel hqueue]
  rfl

theorem queueLoads_skip (hqueue : analysis.queue = uri :: rest)
    (hold : uri ∈ analysis.visited) : queueLoads system (fuel + 1) analysis
      = queueLoads system fuel { analysis with queue := rest } := by
  rw [queueLoads, analyzeQueueM_skip _ fuel hqueue hold]
  rfl

theorem queueLoads_cons (hqueue : analysis.queue = uri :: rest)
    (hnew : uri ∉ analysis.visited) : queueLoads system (fuel + 1) analysis =
      if analysis.workspace.settings.includeRoots.isEmpty then
        queueLoads system fuel (analysis.advance uri rest)
      else
        searchLoads system uri (analysis.advance uri rest)
            (analysis.workspace.analyzeDocument uri).2 ++
          queueLoads system fuel (searchAll system (analysis.advance uri rest)
            (analysis.workspace.analyzeDocument uri).2) := by
  rw [queueLoads, analyzeQueueM_cons _ fuel hqueue hnew]
  split
  · rfl
  · let searched := (searchAllM (traced system uri) (analysis.advance uri rest)
      (analysis.workspace.analyzeDocument uri).2).run.run
    change searched.2 ++ queueLoads system fuel searched.1 = _
    rw [show searched = _ from searchAllM_traced _ _ _ _]

end Queue

/-- What the analysis of a document brings in. -/
def loads (workspace : Workspace) (system : FileSystem) (uri : Uri) : List Loading :=
  queueLoads system (workspace.settings.maxDiskIncludes + 1) ⟨workspace, [uri], [], 0⟩

/-- Nothing comes in if the document is not there. -/
theorem loads_of_not_contains {workspace : Workspace} {uri : Uri} (system : FileSystem)
    (h : workspace.contains uri = false) : workspace.loads system uri = [] := by
  have hnone : ∀ analysis, searchLoads system uri analysis [] = [] := fun _ => rfl
  rw [loads, queueLoads_cons system _ rfl List.not_mem_nil, analyzeDocument_of_not_contains h]
  simp only [hnone, searchAll_nil, List.nil_append, ite_self]
  exact queueLoads_nil system _ rfl

/-- A search brings in nothing and leaves the documents as they are, or it brings in one file. -/
theorem brought_cases (system : FileSystem) (analysis : Analysis) (path : String) :
    (brought system analysis path = [] ∧
      ∃ paths, search system analysis path
        = { analysis with workspace := { analysis.workspace with missing := paths } }) ∨
    ∃ uri chars, brought system analysis path = [uri] ∧
      analysis.workspace.contains uri = false ∧
      analysis.workspace.Finds system path uri chars ∧ search system analysis path
      = { analysis with
          workspace := analysis.workspace.load uri none chars
          queue := analysis.queue ++ [uri]
          loaded := analysis.loaded + 1 } := by
  unfold brought
  rcases search_cases system analysis path with heq | ⟨paths, heq⟩ | ⟨uri, chars, hnew, hfinds, heq⟩
  · rw [heq]
    exact .inl ⟨List.drop_length, analysis.workspace.missing, rfl⟩
  · rw [heq]
    exact .inl ⟨List.drop_length, paths, rfl⟩
  · rw [heq]
    exact .inr ⟨uri, chars, List.drop_left, hnew, hfinds, rfl⟩

/-- A search lets nobody wait and ends no wait. -/
theorem search_pending (system : FileSystem) (analysis : Analysis) (path : String) :
    (search system analysis path).workspace.pending = analysis.workspace.pending := by
  rcases search_cases system analysis path with heq | ⟨paths, heq⟩ | ⟨uri, chars, -, -, heq⟩
  all_goals rw [heq]
  rfl

/-! ## Everything that comes in is listed -/

section Listed

variable {system : FileSystem} {known : Uri → Prop} {owner : Uri}

/-- All documents of a workspace are known. -/
def Listed (known : Uri → Prop) (workspace : Workspace) : Prop :=
  ∀ uri, workspace.contains uri = true → known uri

theorem Listed.search {analysis : Analysis} {path : String} (h : Listed known analysis.workspace)
    (hbrought : ∀ uri ∈ brought system analysis path, known uri) :
    Listed known (search system analysis path).workspace := by
  rcases brought_cases system analysis path with ⟨-, paths, heq⟩ | ⟨uri, chars, hone, -, -, heq⟩
  · rw [heq]
    exact h
  · rw [heq]
    intro other hother
    rcases contains_load.mp hother with rfl | hold
    · exact hbrought other (by simp [hone])
    · exact h other hold

theorem Listed.searchAll {paths : List String} {analysis : Analysis}
    (h : Listed known analysis.workspace)
    (hloads : ∀ load ∈ searchLoads system owner analysis paths, known load.target) :
    Listed known (searchAll system analysis paths).workspace := by
  induction paths generalizing analysis with
  | nil => exact h
  | cons path rest ih =>
    rw [searchAll_cons]
    rw [searchLoads_cons] at hloads
    split
    · exact h
    · rename_i hlimit
      rw [if_neg hlimit] at hloads
      simp only [List.mem_append, List.mem_map] at hloads
      refine ih (h.search fun uri huri => ?_) fun load hload => hloads load (.inr hload)
      exact hloads ⟨owner, path, uri⟩ (.inl ⟨uri, huri, rfl⟩)

theorem Listed.analyzeQueue {fuel : Nat} {analysis : Analysis}
    (h : Listed known analysis.workspace)
    (hloads : ∀ load ∈ queueLoads system fuel analysis, known load.target) :
    Listed known (analyzeQueue system fuel analysis) := by
  induction fuel generalizing analysis with
  | zero => exact h
  | succ fuel ih =>
    cases hqueue : analysis.queue with
    | nil =>
      rw [analyzeQueue_nil _ _ hqueue]
      exact h
    | cons uri rest =>
      by_cases hvisited : uri ∈ analysis.visited
      · rw [queueLoads_skip system fuel hqueue hvisited] at hloads
        rw [analyzeQueue_skip system fuel hqueue hvisited]
        have hskip : Listed known ({ analysis with queue := rest } : Analysis).workspace := h
        exact ih hskip hloads
      · have hanalyzed : Listed known (analysis.advance uri rest).workspace := by
          intro other hother
          rw [Analysis.advance, contains_analyzeDocument] at hother
          exact h other hother
        rw [queueLoads_cons system fuel hqueue hvisited] at hloads
        rw [analyzeQueue_cons system fuel hqueue hvisited]
        split
        · rename_i hroots
          rw [if_pos hroots] at hloads
          exact ih hanalyzed hloads
        · rename_i hroots
          rw [if_neg hroots] at hloads
          simp only [List.mem_append] at hloads
          exact ih (hanalyzed.searchAll fun load hload => hloads load (.inl hload))
            fun load hload => hloads load (.inr hload)

/-- An analysis adds no documents but those that are listed. -/
theorem contains_analyze {workspace : Workspace} (system : FileSystem) {uri other : Uri}
    (h : (workspace.analyze system uri).contains other = true) :
    workspace.contains other = true ∨ ∃ load ∈ workspace.loads system uri, load.target = other := by
  have hlisted : Listed (fun other => workspace.contains other = true ∨
      ∃ load ∈ workspace.loads system uri, load.target = other) (workspace.analyze system uri) :=
    Listed.analyzeQueue (fun _ hold => .inl hold) fun load hload => .inr ⟨load, hload, rfl⟩
  exact hlisted other h

end Listed

/-! ## Everything that comes in is given away -/

/-- An analysis that started with a workspace: what is still to be analysed has come in since. -/
structure Grown (start workspace : Workspace) (queue : List Uri) : Prop where
  unrestricted : workspace.settings.retryExtensions = []
  kept : ∀ uri, start.contains uri = true → workspace.contains uri = true
  fresh : ∀ uri ∈ queue, start.contains uri = false

namespace Grown

variable {start workspace : Workspace} {queue : List Uri}

theorem mayResolve (h : Grown start workspace queue) (uri : Uri) :
    workspace.settings.mayResolve uri = true := by
  simp [Settings.mayResolve, h.unrestricted]

theorem discover (h : Grown start workspace queue) {uri : Uri} (chars : List Char)
    (hnew : workspace.contains uri = false) :
    Grown start (workspace.load uri none chars) (queue ++ [uri]) where
  unrestricted := h.unrestricted
  kept other hother := contains_load.mpr (.inr (h.kept other hother))
  fresh other hmem := by
    rcases List.mem_append.mp hmem with hmem | hmem
    · exact h.fresh other hmem
    · obtain rfl := List.mem_singleton.mp hmem
      by_contra hold
      rw [h.kept other (by simpa using hold)] at hnew
      cases hnew

theorem analyze (h : Grown start workspace queue) (uri : Uri) :
    Grown start (workspace.analyzeDocument uri).1 queue where
  unrestricted := by
    rw [analyzeDocument_settings]
    exact h.unrestricted
  kept other hother := by
    rw [contains_analyzeDocument]
    exact h.kept other hother
  fresh := h.fresh

theorem mono (h : Grown start workspace queue) {others : List Uri} (hsubset : others ⊆ queue) :
    Grown start workspace others :=
  { h with fresh := fun other hmem => h.fresh other (hsubset hmem) }

end Grown

theorem grown_preserved (start : Workspace) : Preserved (Grown start) where
  discover chars h hnew := h.discover chars hnew
  analyze h _ := (h.mono (List.subset_cons_self _ _)).analyze _
  missing _ h := ⟨h.unrestricted, h.kept, h.fresh⟩

/-- A document has been given one that came in since the start and is what an include means. -/
def Served (start workspace : Workspace) (owner : Uri) (path : String) : Prop :=
  ∃ document ∈ workspace.documents, document.uri = owner ∧ ∃ target ∈ document.includes,
    Include.isMatch target path = true ∧ start.contains target = false ∧
      workspace.contains target = true

/-- What came in for an include is still to be analysed, or the wait for it is over. -/
structure Serving (start : Workspace) (load : Loading) (workspace : Workspace) (queue : List Uri) :
    Prop extends Grown start workspace queue where
  stored : workspace.contains load.owner = true
  done : load.owner ∉ queue
  served : workspace.Waits load.path load.owner ∧ load.target ∈ queue ∨
    ¬ workspace.Waits load.path load.owner ∧ Served start workspace load.owner load.path

namespace Serving

variable {start workspace : Workspace} {queue : List Uri} {load : Loading} {uri : Uri}

/-- A file that has just come in is still to be analysed. -/
theorem of_waits {analysis : Analysis} {owner target : Uri} {path : String}
    (hgrown : Grown start analysis.workspace analysis.queue) (hunder : analysis.Underway)
    (hvisited : owner ∈ analysis.visited) (hwaits : analysis.workspace.Waits path owner)
    (htarget : target ∈ analysis.queue) :
    Serving start ⟨owner, path, target⟩ analysis.workspace analysis.queue where
  toGrown := hgrown
  stored := hunder.stored owner (List.mem_append_right _ hvisited)
  done hmem := (List.nodup_append.mp hunder.once).2.2 owner hmem owner hvisited rfl
  served := .inl ⟨hwaits, htarget⟩

theorem discover (h : Serving start load workspace queue) (chars : List Char)
    (hnew : workspace.contains uri = false) :
    Serving start load (workspace.load uri none chars) (queue ++ [uri]) where
  toGrown := h.toGrown.discover chars hnew
  stored := contains_load.mpr (.inr h.stored)
  done := by
    intro hmem
    rcases List.mem_append.mp hmem with hmem | hmem
    · exact h.done hmem
    · rw [← List.mem_singleton.mp hmem, h.stored] at hnew
      cases hnew
  served := by
    rcases h.served with ⟨hwaits, hqueue⟩ | ⟨hwaits, document, hmem, howner, target, htarget,
      hmatch, hfresh, hcontains⟩
    · exact .inl ⟨hwaits, List.mem_append_left _ hqueue⟩
    · refine .inr ⟨hwaits, document, mem_load.mpr (.inr ⟨hmem, ?_⟩), howner, target,
        htarget, hmatch, hfresh, contains_load.mpr (.inr hcontains)⟩
      rintro rfl
      rw [howner, h.stored] at hnew
      cases hnew

/-- What the owner of an include gains while another document is analysed. -/
theorem gains (h : Serving start load workspace (uri :: queue)) {document : Document}
    (hmem : document ∈ workspace.documents) (howner : document.uri = load.owner) :
    ∃ analyzed ∈ (workspace.analyzeDocument uri).1.documents, analyzed.uri = load.owner ∧
      ∀ target, target ∈ analyzed.includes ↔ target ∈ document.includes ∨
        target = uri ∧ ∃ path, workspace.Waits path load.owner ∧
          Include.isMatch uri path = true := by
  have hne : load.owner ≠ uri := fun heq => h.done (heq ▸ List.mem_cons_self)
  obtain ⟨analyzed, hanalyzed, huri⟩ : ∃ analyzed ∈ (workspace.analyzeDocument uri).1.documents,
      analyzed.uri = load.owner := by
    rw [← contains_iff, contains_analyzeDocument]
    exact h.stored
  obtain ⟨old, hold, hother, hincludes⟩ :=
    mem_includes_other (h.mayResolve uri) hanalyzed (huri ▸ hne)
  have holdOwner : old.uri = load.owner := by
    rw [← huri, hother]
  obtain rfl := workspace.sorted.eq_of_uri_eq hold hmem (holdOwner.trans howner.symm)
  rw [holdOwner] at hincludes
  exact ⟨analyzed, hanalyzed, huri, hincludes⟩

theorem analyze (h : Serving start load workspace (uri :: queue))
    (hmatch : Include.isMatch load.target load.path = true)
    (hcontains : workspace.contains uri = true) :
    Serving start load (workspace.analyzeDocument uri).1 queue := by
  have hne : load.owner ≠ uri := fun heq => h.done (heq ▸ List.mem_cons_self)
  obtain ⟨document, hget⟩ := Option.isSome_iff_exists.mp hcontains
  have hwaits : (workspace.analyzeDocument uri).1.Waits load.path load.owner ↔
      workspace.Waits load.path load.owner ∧ Include.isMatch uri load.path = false := by
    rw [waits_analyzeDocument (h.mayResolve uri) hget]
    simp [hne]
  refine ⟨(h.mono (List.subset_cons_self _ _)).analyze uri, ?_,
    fun hmem => h.done (List.mem_cons_of_mem _ hmem), ?_⟩
  · rw [contains_analyzeDocument]
    exact h.stored
  rcases h.served with ⟨hbefore, hqueue⟩ | ⟨hbefore, old, hold, howner, target, htarget, hrest⟩
  · cases huri : Include.isMatch uri load.path with
    | false =>
      -- The file is not this document, so it is still to come.
      have htarget : load.target ≠ uri := by
        rintro heq
        rw [heq, huri] at hmatch
        cases hmatch
      exact .inl ⟨hwaits.mpr ⟨hbefore, huri⟩, List.mem_of_ne_of_mem htarget hqueue⟩
    | true =>
      obtain ⟨owner, hstored, howner⟩ := contains_iff.mp h.stored
      obtain ⟨analyzed, hanalyzed, hsame, hincludes⟩ := h.gains hstored howner
      refine .inr ⟨fun hafter => ?_, analyzed, hanalyzed, hsame, uri,
        (hincludes uri).mpr (.inr ⟨rfl, load.path, hbefore, huri⟩), huri,
        h.fresh uri List.mem_cons_self, ?_⟩
      · rw [huri] at hwaits
        exact Bool.noConfusion (hwaits.mp hafter).2
      · rw [contains_analyzeDocument]
        exact hcontains
  · obtain ⟨analyzed, hanalyzed, hsame, hincludes⟩ := h.gains hold howner
    refine .inr ⟨fun hafter => hbefore (hwaits.mp hafter).1, analyzed, hanalyzed, hsame, target,
      (hincludes target).mpr (.inl htarget), ?_⟩
    rw [contains_analyzeDocument]
    exact hrest

end Serving

theorem serving_preserved (start : Workspace) (load : Loading)
    (hmatch : Include.isMatch load.target load.path = true) :
    Preserved (Serving start load) where
  discover chars h hnew := h.discover chars hnew
  analyze h hcontains := h.analyze hmatch hcontains
  missing _ h := ⟨⟨h.unrestricted, h.kept, h.fresh⟩, h.stored, h.done, h.served⟩

/-- A regular include brings in only what it means. -/
theorem isMatch_of_finds {workspace : Workspace} {system : FileSystem} {path : String} {uri : Uri}
    {chars : List Char} (h : workspace.Finds system path uri chars)
    (hregular : Include.isRegular path = true) : Include.isMatch uri path = true := by
  obtain ⟨file, hfind, hread⟩ := h
  exact Include.isMatch_of_findFile? hfind hread hregular

section Serve

variable {start : Workspace} {system : FileSystem} {owner : Uri} {load : Loading}

/-- Once a search has brought in a file, the rest of the searches goes on serving it. -/
theorem serving_searchAll {paths : List String} {analysis : Analysis}
    (hgrown : Grown start analysis.workspace analysis.queue) (hunder : analysis.Underway)
    (hvisited : owner ∈ analysis.visited)
    (hwaits : ∀ path ∈ paths, analysis.workspace.Waits path owner)
    (hload : load ∈ searchLoads system owner analysis paths)
    (hregular : Include.isRegular load.path = true) :
    Include.isMatch load.target load.path = true ∧
      Serving start load (searchAll system analysis paths).workspace
        (searchAll system analysis paths).queue := by
  induction paths generalizing analysis with
  | nil => cases hload
  | cons path rest ih =>
    rw [searchLoads_cons] at hload
    rw [searchAll_cons]
    split at hload
    · cases hload
    · rename_i hlimit
      rw [if_neg hlimit]
      obtain ⟨hgrown', hunder', -⟩ := (grown_preserved start).search system path hgrown hunder
        (Nat.lt_of_not_le hlimit)
      have hvisited' : owner ∈ (search system analysis path).visited := by
        rw [search_visited]
        exact hvisited
      have hwaits' : ∀ other ∈ path :: rest,
          (search system analysis path).workspace.Waits other owner := by
        intro other hmem
        rw [Waits, search_pending]
        exact hwaits other hmem
      rcases List.mem_append.mp hload with hmem | hmem
      · obtain ⟨uri, huri, rfl⟩ := List.mem_map.mp hmem
        rcases brought_cases system analysis path with
          ⟨hnone, -⟩ | ⟨target, chars, hone, -, hfinds, heq⟩
        · rw [hnone] at huri
          cases huri
        · obtain rfl : uri = target := by simpa [hone] using huri
          have hmatch := isMatch_of_finds hfinds hregular
          have hqueue : uri ∈ (search system analysis path).queue := by
            rw [heq]
            exact List.mem_append_right _ (List.mem_singleton.mpr rfl)
          have hserving := Serving.of_waits hgrown' hunder' hvisited'
            (hwaits' path List.mem_cons_self) hqueue
          exact ⟨hmatch, ((serving_preserved start ⟨owner, path, uri⟩ hmatch).searchAll system rest
            hserving hunder').1⟩
      · exact ih hgrown' hunder' hvisited'
          (fun other hother => hwaits' other (List.mem_cons_of_mem _ hother)) hmem

/-- What the analysis of a document brings in is served in the end. -/
theorem serving_analyzeQueue {fuel : Nat} {analysis : Analysis}
    (hgrown : Grown start analysis.workspace analysis.queue.tail) (hunder : analysis.Underway)
    (hfuel : analysis.left ≤ fuel) (hload : load ∈ queueLoads system fuel analysis)
    (hregular : Include.isRegular load.path = true) :
    Include.isMatch load.target load.path = true ∧
      Serving start load (analyzeQueue system fuel analysis) [] := by
  induction fuel generalizing analysis with
  | zero => cases hload
  | succ fuel ih =>
    cases hqueue : analysis.queue with
    | nil =>
      rw [queueLoads_nil system _ hqueue] at hload
      cases hload
    | cons uri rest =>
      obtain ⟨hcontains, hnew, hunder', hleft⟩ := hunder.advance hqueue
      have hgrown' : Grown start (analysis.advance uri rest).workspace
          (analysis.advance uri rest).queue := by
        rw [hqueue] at hgrown
        exact hgrown.analyze uri
      rw [queueLoads_cons system fuel hqueue hnew] at hload
      rw [analyzeQueue_cons system fuel hqueue hnew]
      split
      · rename_i hroots
        rw [if_pos hroots] at hload
        exact ih (hgrown'.mono (fun _ => List.mem_of_mem_tail)) hunder' (by omega) hload
      · rename_i hroots
        rw [if_neg hroots] at hload
        obtain ⟨hgrown'', hunder'', hleft'⟩ := (grown_preserved start).searchAll system
          (analysis.workspace.analyzeDocument uri).2 hgrown' hunder'
        rcases List.mem_append.mp hload with hmem | hmem
        · have hwaits : ∀ path ∈ (analysis.workspace.analyzeDocument uri).2,
              (analysis.advance uri rest).workspace.Waits path uri :=
            fun path hpath => (waits_of_unresolved hpath).1
          obtain ⟨hmatch, hserving⟩ := serving_searchAll hgrown' hunder' List.mem_cons_self hwaits
            hmem hregular
          exact ⟨hmatch, (serving_preserved start load hmatch).analyzeQueue system hserving hunder''
            (by omega)⟩
        · exact ih (hgrown''.mono (fun _ => List.mem_of_mem_tail)) hunder'' (by omega) hmem

end Serve

/-- Whatever the include roots and the file system, a file that is found for a regular include is
a document that the include means. And whenever an analysis loads a file for a regular include
of a document, that document does not wait for the include any more in the end, and it includes
the file, or else another one that the analysis loaded and that the include means as well. -/
theorem search_agrees :
    (∀ (system : FileSystem) (roots : List FilePath) (path : String) (file : FilePath) (uri : Uri)
        (chars : List Char), Include.isRegular path = true →
      Include.findFile? system roots path = some file →
      Include.read system file = .ok (uri, chars) → Include.isMatch uri path = true) ∧
    ∀ (workspace : Workspace) (system : FileSystem) (uri : Uri),
      workspace.settings.retryExtensions = [] →
      ∀ load ∈ workspace.loads system uri, Include.isRegular load.path = true →
        ¬ (workspace.analyze system uri).Waits load.path load.owner ∧
        ∃ document, (workspace.analyze system uri).get? load.owner = some document ∧
          (load.target ∈ document.includes ∨
            ∃ other ∈ workspace.loads system uri, other.target ∈ document.includes ∧
              Include.isMatch other.target load.path = true) := by
  constructor
  · intro system roots path file uri chars hregular hfind hread
    exact Include.isMatch_of_findFile? hfind hread hregular
  · intro workspace system uri hunrestricted load hload hregular
    have hcontains : workspace.contains uri = true := by
      by_contra hnew
      rw [loads_of_not_contains system (by simpa using hnew)] at hload
      cases hload
    have hgrown : Grown workspace workspace [] := ⟨hunrestricted, fun _ h => h, by simp⟩
    obtain ⟨-, hserving⟩ := serving_analyzeQueue hgrown
      ⟨by simpa using hcontains, by simp⟩ (by simp [Analysis.left, Nat.add_comm]) hload hregular
    rcases hserving.served with ⟨-, hqueue⟩ | ⟨hwaits, document, hmem, howner, target, htarget,
      hmatch, hfresh, hknown⟩
    · cases hqueue
    · refine ⟨hwaits, document, get?_eq_some_iff.mpr ⟨hmem, howner⟩, .inr ?_⟩
      rcases contains_analyze system hknown with hold | ⟨other, hother, rfl⟩
      · rw [hfresh] at hold
        cases hold
      · exact ⟨other, hother, htarget, hmatch⟩

/-! ## Files in memory -/

/-- The root directory as the only include root. -/
def rootSettings : Settings := { Settings.standard with includeRoots := [⟨"/"⟩] }

/-- Files without text. -/
def blankFiles (places : List (List String)) : FileSystem :=
  places.foldl (fun system place => system.write place (.text [])) .empty

/-- A workspace with one document, which is not analysed yet. -/
def including (text : String) : Workspace :=
  (empty rootSettings).load (rootFile "m.azsl") (some 1) text.toList

theorem search_agrees_nested :
    (Include.isRegular "lib/c.azsli" = true ∧
      Include.findFile? (blankFiles [["lib", "c.azsli"]]) [⟨"/"⟩] "lib/c.azsli"
        = some ⟨"/lib/c.azsli"⟩ ∧
      Include.read (blankFiles [["lib", "c.azsli"]]) ⟨"/lib/c.azsli"⟩
        = .ok (rootFile "lib/c.azsli", []) ∧
      Include.isMatch (rootFile "lib/c.azsli") "lib/c.azsli" = true) ∧
    (including "#include <lib/c.azsli>").settings.retryExtensions = [] ∧
    (⟨rootFile "m.azsl", "lib/c.azsli", rootFile "lib/c.azsli"⟩ : Loading) ∈
      (including "#include <lib/c.azsli>").loads (blankFiles [["lib", "c.azsli"]])
        (rootFile "m.azsl") ∧
    ¬ ((including "#include <lib/c.azsli>").analyze (blankFiles [["lib", "c.azsli"]])
      (rootFile "m.azsl")).Waits "lib/c.azsli" (rootFile "m.azsl") := by
  have hregular : Include.isRegular "lib/c.azsli" = true := by decide +kernel
  have hfind : Include.findFile? (blankFiles [["lib", "c.azsli"]]) [⟨"/"⟩] "lib/c.azsli"
      = some ⟨"/lib/c.azsli"⟩ := by decide +kernel
  have hread : Include.read (blankFiles [["lib", "c.azsli"]]) ⟨"/lib/c.azsli"⟩
      = .ok (rootFile "lib/c.azsli", []) := by decide +kernel
  have hload : (⟨rootFile "m.azsl", "lib/c.azsli", rootFile "lib/c.azsli"⟩ : Loading) ∈
      (including "#include <lib/c.azsli>").loads (blankFiles [["lib", "c.azsli"]])
        (rootFile "m.azsl") := by decide +kernel
  exact ⟨⟨hregular, hfind, hread, search_agrees.1 _ _ _ _ _ _ hregular hfind hread⟩, rfl, hload,
    (search_agrees.2 _ _ _ rfl _ hload hregular).1⟩

/-- Searching and matching disagree on an include with a doubled slash: the file that is found
for it is not what it means, and the document goes on waiting when the file has been loaded. And
even if they agree, the file may be loaded in vain: here the file for the first include is what
the second means as well. -/
theorem search_disagrees :
    (Include.findFile? (blankFiles [["lib", "c.azsli"]]) [⟨"/"⟩] "lib//c.azsli"
        = some ⟨"/lib//c.azsli"⟩ ∧
      Include.read (blankFiles [["lib", "c.azsli"]]) ⟨"/lib//c.azsli"⟩
        = .ok (rootFile "lib/c.azsli", []) ∧
      Include.isMatch (rootFile "lib/c.azsli") "lib//c.azsli" = false) ∧
    ((including "#include <lib//c.azsli>").loads (blankFiles [["lib", "c.azsli"]])
        (rootFile "m.azsl") = [⟨rootFile "m.azsl", "lib//c.azsli", rootFile "lib/c.azsli"⟩] ∧
      ((including "#include <lib//c.azsli>").analyze (blankFiles [["lib", "c.azsli"]])
        (rootFile "m.azsl")).pending = [⟨"lib//c.azsli", [rootFile "m.azsl"]⟩]) ∧
    (including "#include <x/a.azsli>\n#include <a.azsli>").loads
        (blankFiles [["x", "a.azsli"], ["a.azsli"]]) (rootFile "m.azsl")
      = [⟨rootFile "m.azsl", "x/a.azsli", rootFile "x/a.azsli"⟩,
        ⟨rootFile "m.azsl", "a.azsli", rootFile "a.azsli"⟩] ∧
    (((including "#include <x/a.azsli>\n#include <a.azsli>").analyze
        (blankFiles [["x", "a.azsli"], ["a.azsli"]]) (rootFile "m.azsl")).get?
          (rootFile "m.azsl")).map (·.includes) = some [rootFile "x/a.azsli"] := by
  refine ⟨⟨?_, ?_, ?_⟩, ⟨?_, ?_⟩, ?_, ?_⟩
  all_goals decide +kernel

end Workspace

end Azsl
