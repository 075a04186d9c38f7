/-
Azsl.Proofs.Workspace.Missing — noting what is missing on disk changes no answer.

An include that is not below the include roots is noted, and is not looked for again. As long as
nothing changes on disk, what is noted is really missing (`ReallyMissing`): the note is thrown
away when the settings change, and nothing else changes where includes are looked for. So a
workspace that keeps no note and looks for every include anew gives the same answers and holds
the same documents at any time (`history_forget`). That workspace runs the same algorithms with
another way to look for an include, and with the usual one they are what a workspace does
(`callBy_search`).
-/
import Azsl.Proofs.Workspace.Run
import Azsl.Workspace.Query

namespace Azsl

namespace Workspace

/-! ## Without a note -/

/-- Look for one include on disk, whatever is known to be missing, and note nothing. -/
def searchAnew (system : FileSystem) (analysis : Analysis) (path : String) : Analysis :=
  let workspace := analysis.workspace
  match Include.findFile? system workspace.settings.includeRoots path with
  | none => analysis
  | some file =>
    match Include.read system file with
    | .error _ => analysis
    | .ok (uri, chars) =>
      if workspace.contains uri then analysis
      else
        { analysis with
          workspace := workspace.load uri none chars
          queue := analysis.queue ++ [uri]
          loaded := analysis.loaded + 1 }

/-- Analyse a document, looking for includes in some way. -/
def analyzeBy (look : Analysis → String → Analysis) (workspace : Workspace) (uri : Uri) :
    Workspace :=
  Id.run (analyzeQueueM (fun _ => look) (workspace.settings.maxDiskIncludes + 1)
    ⟨workspace, [uri], [], 0⟩)

theorem analyzeBy_search (system : FileSystem) (workspace : Workspace) (uri : Uri) :
    analyzeBy (search system) workspace uri = workspace.analyze system uri := rfl

/-! ## What a workspace can be asked to do -/

/-- Everything that a workspace can be asked for. -/
inductive Call where
  | opened (uri : Uri) (version : Int) (chars : List Char)
  | changed (uri : Uri) (version : Int) (changes : List Change)
  | closed (uri : Uri)
  | analyzed (uri : Uri)
  | configured (settings : Settings)
  | reset
  | document (uri : Uri)
  | function (uri : Uri) (name : String)
  | definition (uri : Uri) (position : Position)
  | hover (uri : Uri) (position : Position)
  | diagnostics (uri : Uri)
  | functions (uri : Uri)

/-- What comes of a call. -/
inductive Outcome where
  | done
  | opened (accepted : Bool)
  | changed (failure : Option DocumentError)
  | document (found : Option Document)
  | function (found : Option (Uri × FunctionSymbol))
  | definition (found : Option (Uri × Position))
  | hover (text : Option String)
  | diagnostics (found : List Diagnostic)
  | functions (found : List FunctionSymbol)

/-- Do what a call asks for. -/
def call (system : FileSystem) (workspace : Workspace) : Call → Workspace × Outcome
  | .opened uri version chars =>
    let (opened, accepted) := workspace.openDocument system uri version chars
    (opened, .opened accepted)
  | .changed uri version changes =>
    match workspace.changeDocument system uri version changes with
    | .ok changed => (changed, .changed none)
    | .error error => (workspace, .changed (some error))
  | .closed uri => (workspace.closeDocument uri, .done)
  | .analyzed uri => (workspace.analyze system uri, .done)
  | .configured settings => (workspace.configure settings, .done)
  | .reset => (workspace.reset, .done)
  | .document uri => (workspace, .document (workspace.get? uri))
  | .function uri name => (workspace, .function (workspace.findFunction? uri name))
  | .definition uri position => (workspace, .definition (workspace.definition? uri position))
  | .hover uri position => (workspace, .hover (workspace.hover? uri position))
  | .diagnostics uri => (workspace, .diagnostics (workspace.diagnostics uri))
  | .functions uri => (workspace, .functions (workspace.functions uri))

/-- Do what a call asks for, looking for includes in some way. -/
def callBy (look : Analysis → String → Analysis) (system : FileSystem) (workspace : Workspace) :
    Call → Workspace × Outcome
  | .opened uri version chars =>
    if ((workspace.get? uri).bind (·.version)).any (version ≤ ·) then (workspace, .opened false)
    else (analyzeBy look (workspace.load uri (some version) chars) uri, .opened true)
  | .changed uri version changes =>
    match applyChanges system uri version changes workspace with
    | .ok changed => (analyzeBy look changed uri, .changed none)
    | .error error => (workspace, .changed (some error))
  | .analyzed uri => (analyzeBy look workspace uri, .done)
  | other => workspace.call system other

/-- Do what a call asks for, looking for every include anew. -/
def callAnew (system : FileSystem) : Workspace → Call → Workspace × Outcome :=
  callBy (searchAnew system) system

/-- The two ways to do what a call asks for differ in how an include is looked for, and in
nothing else. -/
theorem callBy_search (system : FileSystem) (workspace : Workspace) (next : Call) :
    callBy (search system) system workspace next = workspace.call system next := by
  cases next with
  | opened uri version chars =>
    simp only [callBy, call, openDocument, analyzeBy_search]
    split <;> rfl
  | changed uri version changes =>
    simp only [callBy, call, changeDocument, analyzeBy_search]
    cases applyChanges system uri version changes workspace with
    | ok changed => rfl
    | error error => rfl
  | analyzed uri => rw [callBy, analyzeBy_search, call]
  | closed | configured | reset | document | function | definition | hover | diagnostics
  | functions => rfl

/-- What comes of each of some calls, and the workspace behind it. -/
def history (perform : Workspace → Call → Workspace × Outcome) (workspace : Workspace) :
    List Call → List (Workspace × Outcome)
  | [] => []
  | next :: rest =>
    perform workspace next :: history perform (perform workspace next).1 rest

/-! ## Forgetting the note -/

/-- A workspace of which nothing is known to be missing. -/
def forget (workspace : Workspace) : Workspace := { workspace with missing := [] }

/-- An analysis of a workspace of which nothing is known to be missing. -/
def Analysis.forget (analysis : Analysis) : Analysis :=
  { analysis with workspace := analysis.workspace.forget }

theorem await_missing (workspace : Workspace) (paths : List String) (path : String) (uri : Uri) :
    ({ workspace with missing := paths } : Workspace).await path uri
      = { workspace.await path uri with missing := paths } := by
  unfold await
  simp only
  split <;> rfl

theorem awaitAll_missing (workspace : Workspace) (paths missing : List String) (uri : Uri) :
    ({ workspace with missing := missing } : Workspace).awaitAll paths uri
      = { workspace.awaitAll paths uri with missing := missing } := by
  induction paths generalizing workspace with
  | nil => rfl
  | cons path rest ih =>
    simp only [awaitAll, List.foldl_cons, await_missing]
    exact ih _

theorem deliver_missing (workspace : Workspace) (paths : List String) (uri : Uri) :
    ({ workspace with missing := paths } : Workspace).deliver uri
      = { workspace.deliver uri with missing := paths } := by
  cases hmay : workspace.settings.mayResolve uri with
  | true =>
    simp only [deliver, hmay, if_true]
    rfl
  | false => simp only [deliver, hmay, Bool.false_eq_true, if_false]

theorem cleared_missing (workspace : Workspace) (paths : List String) (uri : Uri) :
    ({ workspace with missing := paths } : Workspace).cleared uri
      = { workspace.cleared uri with missing := paths } :=
  deliver_missing (workspace.withdraw uri) paths uri

/-- Analysing a document does not look at what is known to be missing, and leaves it as it is. -/
theorem analyzeDocument_missing (workspace : Workspace) (paths : List String) (uri : Uri) :
    ({ workspace with missing := paths } : Workspace).analyzeDocument uri
      = ({ (workspace.analyzeDocument uri).1 with missing := paths },
        (workspace.analyzeDocument uri).2) := by
  cases hget : (workspace.cleared uri).get? uri with
  | none =>
    have hcontains : workspace.contains uri = false := by
      rwa [get?_eq_none_iff, contains_cleared] at hget
    have hcontains' : ({ workspace with missing := paths } : Workspace).contains uri = false :=
      hcontains
    rw [analyzeDocument_of_not_contains hcontains, analyzeDocument_of_not_contains hcontains',
      cleared_missing]
  | some document =>
    have hget' : (({ workspace with missing := paths } : Workspace).cleared uri).get? uri
        = some document := by
      rw [cleared_missing]
      exact hget
    have hresolution : ({ workspace with missing := paths } : Workspace).resolution document
        = workspace.resolution document := by
      rw [resolution, cleared_missing]
      rfl
    rw [analyzeDocument_eq hget, analyzeDocument_eq hget', hresolution, cleared_missing,
      awaitAll_missing]
    rfl

theorem applyChanges_forget (system : FileSystem) (uri : Uri) (version : Int)
    (changes : List Change) (workspace : Workspace) :
    applyChanges system uri version changes workspace.forget
      = (applyChanges system uri version changes workspace).map forget := by
  induction changes generalizing workspace with
  | nil => rfl
  | cons change rest ih =>
    cases change with
    | full chars => exact ih (workspace.load uri (some version) chars)
    | replace range chars =>
      have hget : workspace.forget.get? uri = workspace.get? uri := rfl
      simp only [applyChanges, hget]
      cases workspace.get? uri with
      | some document => exact ih (workspace.put (document.edit version range chars))
      | none =>
        cases uri.filePath? with
        | none => rfl
        | some path =>
          cases hread : system.read path with
          | error error => simp only [hread]; rfl
          | ok current => simp only [hread]; rfl

/-! ## What is noted -/

/-- What is known to be missing is not found below the include roots. -/
def ReallyMissing (system : FileSystem) (workspace : Workspace) : Prop :=
  ∀ path ∈ workspace.missing,
    Include.findFile? system workspace.settings.includeRoots path = none

namespace ReallyMissing

variable {system : FileSystem} {workspace : Workspace} {analysis : Analysis}

theorem put (h : ReallyMissing system workspace) (document : Document) :
    ReallyMissing system (workspace.put document) := h

theorem analyzeDocument (h : ReallyMissing system workspace) (uri : Uri) :
    ReallyMissing system (workspace.analyzeDocument uri).1 := by
  have hmissing : (workspace.analyzeDocument uri).1.missing = workspace.missing :=
    congrArg (·.1.missing) (analyzeDocument_missing workspace workspace.missing uri)
  unfold ReallyMissing
  rwa [hmissing, analyzeDocument_settings]

/-- Looking for an include notes it only if it is not there, and does not look only if it is
not there. -/
theorem search (h : ReallyMissing system analysis.workspace) (path : String) :
    ReallyMissing system (search system analysis path).workspace ∧
      (Workspace.search system analysis path).forget
        = searchAnew system analysis.forget path := by
  cases hfind : Include.findFile? system analysis.workspace.settings.includeRoots path with
  | none =>
    have hanew : searchAnew system analysis.forget path = analysis.forget := by
      unfold searchAnew
      simp only [Analysis.forget, Workspace.forget, hfind]
    rw [hanew]
    unfold Workspace.search
    simp only [hfind]
    split
    · exact ⟨h, rfl⟩
    · refine ⟨fun other hmem => ?_, rfl⟩
      rcases List.mem_cons.mp hmem with rfl | hmem
      · exact hfind
      · exact h other hmem
  | some file =>
    have hnew : analysis.workspace.missing.contains path = false := by
      rw [Bool.eq_false_iff, ne_eq, List.contains_iff_mem]
      intro hmem
      rw [h path hmem] at hfind
      cases hfind
    have hroots : analysis.forget.workspace.settings = analysis.workspace.settings := rfl
    unfold Workspace.search searchAnew
    simp only [hnew, Bool.false_eq_true, if_false, hroots, hfind]
    cases Include.read system file with
    | error error => exact ⟨h, rfl⟩
    | ok found =>
      have hcontains : analysis.forget.workspace.contains found.1
          = analysis.workspace.contains found.1 := rfl
      simp only [hcontains]
      split
      · exact ⟨h, rfl⟩
      · exact ⟨h, rfl⟩

theorem searchAll (h : ReallyMissing system analysis.workspace) (paths : List String) :
    ReallyMissing system (searchAll system analysis paths).workspace ∧
      (Workspace.searchAll system analysis paths).forget
        = Id.run (searchAllM (searchAnew system) analysis.forget paths) := by
  induction paths generalizing analysis with
  | nil => exact ⟨h, rfl⟩
  | cons path rest ih =>
    have hlimit : analysis.forget.workspace.settings.maxDiskIncludes ≤ analysis.forget.loaded ↔
        analysis.workspace.settings.maxDiskIncludes ≤ analysis.loaded := Iff.rfl
    rw [searchAll_cons, searchAllM_cons]
    simp only [hlimit]
    split
    · exact ⟨h, rfl⟩
    · obtain ⟨hnext, hanew⟩ := h.search path
      obtain ⟨hlast, hrest⟩ := ih hnext
      rw [hanew] at hrest
      exact ⟨hlast, hrest⟩

/-- The next document of the queue is analysed in the same way. -/
theorem advance (h : ReallyMissing system analysis.workspace) (uri : Uri) (rest : List Uri) :
    ReallyMissing system (analysis.advance uri rest).workspace ∧
      (analysis.advance uri rest).forget = analysis.forget.advance uri rest ∧
      (analysis.forget.workspace.analyzeDocument uri).2
        = (analysis.workspace.analyzeDocument uri).2 := by
  have hsame := analyzeDocument_missing analysis.workspace [] uri
  refine ⟨h.analyzeDocument uri, ?_, (congrArg Prod.snd hsame).trans rfl⟩
  simp only [Analysis.advance, Analysis.forget, Workspace.forget, hsame]

theorem analyzeQueue (h : ReallyMissing system analysis.workspace) (fuel : Nat) :
    ReallyMissing system (analyzeQueue system fuel analysis) ∧
      (Workspace.analyzeQueue system fuel analysis).forget
        = Id.run (analyzeQueueM (fun _ => searchAnew system) fuel analysis.forget) := by
  induction fuel generalizing analysis with
  | zero => exact ⟨h, rfl⟩
  | succ fuel ih =>
    cases hqueue : analysis.queue with
    | nil =>
      have hqueue' : analysis.forget.queue = [] := hqueue
      rw [analyzeQueue_nil _ _ hqueue, analyzeQueueM_nil _ _ hqueue']
      exact ⟨h, rfl⟩
    | cons uri rest =>
      have hqueue' : analysis.forget.queue = uri :: rest := hqueue
      by_cases hvisited : uri ∈ analysis.visited
      · have hvisited' : uri ∈ analysis.forget.visited := hvisited
        have hskip : ReallyMissing system ({ analysis with queue := rest } : Analysis).workspace :=
          h
        rw [analyzeQueue_skip _ _ hqueue hvisited, analyzeQueueM_skip _ _ hqueue' hvisited']
        exact ih hskip
      · have hvisited' : uri ∉ analysis.forget.visited := hvisited
        have hroots : analysis.forget.workspace.settings = analysis.workspace.settings := rfl
        obtain ⟨hnext, hforget, hunresolved⟩ := h.advance uri rest
        rw [analyzeQueue_cons _ _ hqueue hvisited, analyzeQueueM_cons _ _ hqueue' hvisited', hroots,
          hunresolved, ← hforget]
        split
        · exact ih hnext
        · obtain ⟨hsearched, hanew⟩ :=
            hnext.searchAll (analysis.workspace.analyzeDocument uri).2
          obtain ⟨hlast, hrest⟩ := ih hsearched
          rw [hanew] at hrest
          exact ⟨hlast, hrest⟩

theorem analyze (h : ReallyMissing system workspace) (uri : Uri) :
    ReallyMissing system (workspace.analyze system uri) ∧
      (workspace.analyze system uri).forget
        = analyzeBy (searchAnew system) workspace.forget uri := by
  have hbegin : ReallyMissing system (⟨workspace, [uri], [], 0⟩ : Analysis).workspace := h
  exact hbegin.analyzeQueue _

theorem applyChanges {uri : Uri} {version : Int} {changes : List Change} {changed : Workspace}
    (h : ReallyMissing system workspace)
    (hrun : applyChanges system uri version changes workspace = .ok changed) :
    ReallyMissing system changed := by
  induction changes generalizing workspace with
  | nil =>
    obtain rfl := Except.ok.inj hrun
    exact h
  | cons change rest ih =>
    cases change with
    | full chars => exact ih (h.put _) hrun
    | replace range chars =>
      rw [Workspace.applyChanges] at hrun
      split at hrun
      · exact ih (h.put _) hrun
      · split at hrun
        · cases hrun
        · split at hrun
          · cases hrun
          · obtain rfl := Except.ok.inj hrun
            exact h

/-! ## Whole runs -/

/-- With and without a note a call comes to the same. -/
theorem call (h : ReallyMissing system workspace) (next : Call) :
    ReallyMissing system (call system workspace next).1 ∧
      ((Workspace.call system workspace next).1.forget, (Workspace.call system workspace next).2)
        = callAnew system workspace.forget next := by
  rw [← callBy_search]
  cases next with
  | opened uri version chars =>
    have hget : workspace.forget.get? uri = workspace.get? uri := rfl
    simp only [callAnew, callBy, hget, analyzeBy_search]
    split
    · exact ⟨h, rfl⟩
    · have hloaded : ReallyMissing system (workspace.load uri (some version) chars) := h.put _
      obtain ⟨hanalyzed, heq⟩ := hloaded.analyze uri
      exact ⟨hanalyzed, Prod.ext heq rfl⟩
  | changed uri version changes =>
    simp only [callAnew, callBy, applyChanges_forget, analyzeBy_search]
    cases hrun : Workspace.applyChanges system uri version changes workspace with
    | error error => exact ⟨h, rfl⟩
    | ok changed =>
      obtain ⟨hanalyzed, heq⟩ := (h.applyChanges hrun).analyze uri
      exact ⟨hanalyzed, Prod.ext heq rfl⟩
  | closed uri =>
    have hcontains : workspace.forget.contains uri = workspace.contains uri := rfl
    have hsettings : workspace.forget.settings = workspace.settings := rfl
    simp only [callAnew, callBy, Workspace.call, closeDocument, hcontains, hsettings]
    split
    · exact ⟨h, rfl⟩
    · exact ⟨h, rfl⟩
  | analyzed uri =>
    simp only [callAnew, callBy, analyzeBy_search]
    obtain ⟨hanalyzed, heq⟩ := h.analyze uri
    exact ⟨hanalyzed, Prod.ext heq rfl⟩
  | configured settings => exact ⟨fun _ hmem => (List.not_mem_nil hmem).elim, rfl⟩
  | reset => exact ⟨fun _ hmem => (List.not_mem_nil hmem).elim, rfl⟩
  | document | function | definition | hover | diagnostics | functions => exact ⟨h, rfl⟩

theorem history (h : ReallyMissing system workspace) (calls : List Call) :
    (history (Workspace.call system) workspace calls).map (fun entry => (entry.1.forget, entry.2))
      = Workspace.history (callAnew system) workspace.forget calls := by
  induction calls generalizing workspace with
  | nil => rfl
  | cons next rest ih =>
    obtain ⟨hnext, heq⟩ := h.call next
    rw [Workspace.history, Workspace.history, List.map_cons, ih hnext, ← heq]

end ReallyMissing

/-- As long as nothing changes on disk, noting what is missing changes nothing: whatever a new
workspace is asked for, it gives the same answers and holds the same documents and pending
includes at any time as one that looks for every include anew, and never notes anything. -/
theorem history_forget (system : FileSystem) (settings : Settings) (calls : List Call) :
    ((empty settings).history (call system) calls).map (fun entry => (entry.1.forget, entry.2))
      = (empty settings).history (callAnew system) calls :=
  ReallyMissing.history (fun _ hmem => (List.not_mem_nil hmem).elim) calls

end Workspace

end Azsl
