/-
Azsl.Proofs.Workspace.Run — invariants of a workspace over whole runs.

Whatever an editor does comes down to a few steps: a document is loaded or edited, and then all
documents that have changed are analysed, with those that come in from disk. An `Invariant`
holds of a workspace and the documents that are still to be analysed; it is enough to show that
each of the steps keeps it. The worklist of an analysis is treated here once and for all.
-/
import Azsl.Proofs.Workspace.Documents

namespace Azsl

namespace Workspace

/-! ## Operations -/

/-- What can be done to a workspace. Every operation may find another file system. -/
inductive Operation where
  | opened (system : FileSystem) (uri : Uri) (version : Int) (chars : List Char)
  | changed (system : FileSystem) (uri : Uri) (version : Int) (changes : List Change)
  | closed (uri : Uri)
  | analyzed (system : FileSystem) (uri : Uri)
  | configured (settings : Settings)
  | reset

/-- Carry out one operation. A change that fails leaves everything as it is. -/
def apply (workspace : Workspace) : Operation → Workspace
  | .opened system uri version chars => (workspace.openDocument system uri version chars).1
  | .changed system uri version changes =>
    match workspace.changeDocument system uri version changes with
    | .ok changed => changed
    | .error _ => workspace
  | .closed uri => workspace.closeDocument uri
  | .analyzed system uri => workspace.analyze system uri
  | .configured settings => workspace.configure settings
  | .reset => workspace.reset

/-- Carry out operations in order. -/
def run (workspace : Workspace) (operations : List Operation) : Workspace :=
  operations.foldl apply workspace

/-- Settings that an operation brings in meet a condition. -/
def Operation.Within (allowed : Settings → Prop) : Operation → Prop
  | .configured settings => allowed settings
  | _ => True

/-! ## Invariants -/

/-- A property of a workspace with a list of documents still to be analysed that every step of an
analysis keeps. -/
structure Preserved (P : Workspace → List Uri → Prop) : Prop where
  /-- A document that is not there yet comes in from disk. -/
  discover : ∀ {workspace queue uri} (chars), P workspace queue →
    workspace.contains uri = false → P (workspace.load uri none chars) (queue ++ [uri])
  analyze : ∀ {workspace uri rest}, P workspace (uri :: rest) →
    workspace.contains uri = true → P (workspace.analyzeDocument uri).1 rest
  /-- What is known to be missing on disk does not matter. -/
  missing : ∀ {workspace queue} (paths), P workspace queue →
    P { workspace with missing := paths } queue

/-- A property of a workspace with a list of documents still to be analysed that is kept when
documents come in or change, as long as they are analysed later. -/
structure Upheld (P : Workspace → List Uri → Prop) : Prop where
  weaken : ∀ {workspace queue others}, P workspace queue → queue ⊆ others → P workspace others
  load : ∀ {workspace queue} (uri version chars), P workspace queue →
    P (workspace.load uri version chars) (queue ++ [uri])
  edit : ∀ {workspace queue uri document} (version range chars), P workspace queue →
    workspace.get? uri = some document →
    P (workspace.put (document.edit version range chars)) (queue ++ [uri])
  analyze : ∀ {workspace uri rest}, P workspace (uri :: rest) →
    workspace.contains uri = true → P (workspace.analyzeDocument uri).1 rest
  /-- What is known to be missing on disk does not matter. -/
  missing : ∀ {workspace queue} (paths), P workspace queue →
    P { workspace with missing := paths } queue

/-- A property of a workspace with a list of documents still to be analysed that every step
keeps. -/
structure Invariant (allowed : Settings → Prop) (P : Workspace → List Uri → Prop) : Prop
    extends Upheld P where
  empty : ∀ {settings}, allowed settings → P (.empty settings) []
  /-- Analysing a document that is not there. -/
  clear : ∀ {workspace uri}, P workspace [] → workspace.contains uri = false →
    P (workspace.cleared uri) []
  close : ∀ {workspace uri}, P workspace [] → P ((workspace.erase uri).withdraw uri) []
  configure : ∀ {workspace settings}, P workspace [] → allowed settings →
    P (workspace.configure settings) []
  reset : ∀ {workspace}, P workspace [] → P workspace.reset []

theorem Upheld.preserved {P : Workspace → List Uri → Prop} (h : Upheld P) : Preserved P where
  discover chars hP _ := h.load _ none chars hP
  analyze := h.analyze
  missing := h.missing

/-! ## Searching -/

/-- An analysis knows every document that it has to do with, and looks at each only once. -/
structure Analysis.Underway (analysis : Analysis) : Prop where
  stored : ∀ uri ∈ analysis.queue ++ analysis.visited, analysis.workspace.contains uri = true
  once : (analysis.queue ++ analysis.visited).Nodup

/-- A bound on the documents that an analysis will still look at. -/
def Analysis.left (analysis : Analysis) : Nat :=
  analysis.queue.length + (analysis.workspace.settings.maxDiskIncludes - analysis.loaded)

/-- An include is found on disk, as a document with a text. -/
def Finds (workspace : Workspace) (system : FileSystem) (path : String) (uri : Uri)
    (chars : List Char) : Prop :=
  ∃ file, Include.findFile? system workspace.settings.includeRoots path = some file ∧
    Include.read system file = .ok (uri, chars)

/-- Looking for an include may note that it is missing or bring in a new document. -/
theorem search_cases (system : FileSystem) (analysis : Analysis) (path : String) :
    search system analysis path = analysis ∨
    (∃ paths, search system analysis path
      = { analysis with workspace := { analysis.workspace with missing := paths } }) ∨
    ∃ uri chars, analysis.workspace.contains uri = false ∧
      analysis.workspace.Finds system path uri chars ∧ search system analysis path
      = { analysis with
          workspace := analysis.workspace.load uri none chars
          queue := analysis.queue ++ [uri]
          loaded := analysis.loaded + 1 } := by
  unfold search
  simp only
  split
  · exact .inl rfl
  · split
    · exact .inr (.inl ⟨_, rfl⟩)
    · rename_i file hfind
      split
      · exact .inl rfl
      · rename_i uri chars hread
        split
        · exact .inl rfl
        · rename_i hnew
          exact .inr (.inr ⟨uri, chars, by simpa using hnew, ⟨file, hfind, hread⟩, rfl⟩)

theorem search_visited (system : FileSystem) (analysis : Analysis) (path : String) :
    (search system analysis path).visited = analysis.visited := by
  rcases search_cases system analysis path with heq | ⟨paths, heq⟩ | ⟨uri, chars, -, -, heq⟩
  all_goals rw [heq]

theorem searchAllM_cons {m : Type → Type} [Monad m] (look : Analysis → String → m Analysis)
    (analysis : Analysis) (path : String) (rest : List String) :
    searchAllM look analysis (path :: rest)
      = if analysis.workspace.settings.maxDiskIncludes ≤ analysis.loaded then pure analysis
        else look analysis path >>= (searchAllM look · rest) := rfl

theorem searchAll_nil (system : FileSystem) (analysis : Analysis) :
    searchAll system analysis [] = analysis := rfl

theorem searchAll_cons (system : FileSystem) (analysis : Analysis) (path : String)
    (rest : List String) : searchAll system analysis (path :: rest)
      = if analysis.workspace.settings.maxDiskIncludes ≤ analysis.loaded then analysis
        else searchAll system (search system analysis path) rest :=
  searchAllM_cons (m := Id) (search system) analysis path rest

/-- What is kept whenever one include is looked for is kept when all of them are. -/
theorem searchAll_keeps {I : Analysis → Prop} {system : FileSystem}
    (hsearch : ∀ {analysis : Analysis} (path : String),
      analysis.loaded < analysis.workspace.settings.maxDiskIncludes → I analysis →
      I (search system analysis path))
    (paths : List String) {analysis : Analysis} (h : I analysis) :
    I (searchAll system analysis paths) := by
  induction paths generalizing analysis with
  | nil => exact h
  | cons path rest ih =>
    rw [searchAll_cons]
    split
    · exact h
    · rename_i hloaded
      exact ih (hsearch path (Nat.lt_of_not_le hloaded) h)

theorem searchAll_visited (system : FileSystem) (analysis : Analysis) (paths : List String) :
    (searchAll system analysis paths).visited = analysis.visited :=
  searchAll_keeps (I := fun here => here.visited = analysis.visited)
    (fun path _ h => (search_visited system _ path).trans h) paths rfl

/-- What a search brings in counts against the limit. -/
theorem search_left (system : FileSystem) {analysis : Analysis} (path : String)
    (hloaded : analysis.loaded < analysis.workspace.settings.maxDiskIncludes) :
    (search system analysis path).left ≤ analysis.left := by
  rcases search_cases system analysis path with heq | ⟨paths, heq⟩ | ⟨uri, chars, -, -, heq⟩
  · exact Nat.le_of_eq (congrArg Analysis.left heq)
  · exact Nat.le_of_eq ((congrArg Analysis.left heq).trans rfl)
  · rw [heq]
    simp only [Analysis.left, List.length_append, List.length_singleton, load_settings]
    omega

theorem searchAll_left (system : FileSystem) (analysis : Analysis) (paths : List String) :
    (searchAll system analysis paths).left ≤ analysis.left :=
  searchAll_keeps (I := fun here => here.left ≤ analysis.left)
    (fun path hloaded h => Nat.le_trans (search_left system path hloaded) h) paths (Nat.le_refl _)

/-- An analysis when the next document of the queue is analysed, before anything is looked for
on disk. -/
def Analysis.advance (analysis : Analysis) (uri : Uri) (rest : List Uri) : Analysis :=
  { analysis with
    workspace := (analysis.workspace.analyzeDocument uri).1
    queue := rest
    visited := uri :: analysis.visited }

theorem Analysis.advance_left {analysis : Analysis} {uri : Uri} {rest : List Uri}
    (hqueue : analysis.queue = uri :: rest) :
    (analysis.advance uri rest).left + 1 ≤ analysis.left := by
  simp only [Analysis.advance, Analysis.left, analyzeDocument_settings, hqueue, List.length_cons]
  omega

theorem Analysis.Underway.advance {analysis : Analysis} (h : analysis.Underway) {uri : Uri}
    {rest : List Uri} (hqueue : analysis.queue = uri :: rest) :
    analysis.workspace.contains uri = true ∧ uri ∉ analysis.visited ∧
      (analysis.advance uri rest).Underway ∧
      (analysis.advance uri rest).left + 1 ≤ analysis.left := by
  obtain ⟨hstored, honce⟩ := h
  rw [hqueue] at hstored honce
  refine ⟨hstored uri (List.mem_append_left _ List.mem_cons_self), fun hmem => ?_,
    ⟨fun other hmem => ?_, ?_⟩, advance_left hqueue⟩
  · exact (List.nodup_append.mp honce).2.2 uri List.mem_cons_self uri hmem rfl
  · rw [Analysis.advance, contains_analyzeDocument]
    exact hstored other (List.perm_middle.mem_iff.mp hmem)
  · exact List.perm_middle.nodup_iff.mpr honce

section Looking

variable {m : Type → Type} [Monad m] (look : Uri → Analysis → String → m Analysis) (fuel : Nat)
  {analysis : Analysis} {uri : Uri} {rest : List Uri}

theorem analyzeQueueM_nil (hqueue : analysis.queue = []) :
    analyzeQueueM look fuel analysis = pure analysis.workspace := by
  cases fuel with
  | zero => rfl
  | succ fuel => rw [analyzeQueueM, hqueue]

theorem analyzeQueueM_skip (hqueue : analysis.queue = uri :: rest)
    (hold : uri ∈ analysis.visited) : analyzeQueueM look (fuel + 1) analysis
      = analyzeQueueM look fuel { analysis with queue := rest } := by
  rw [analyzeQueueM, hqueue]
  simp only [List.contains_iff_mem, hold, if_true]

theorem analyzeQueueM_cons (hqueue : analysis.queue = uri :: rest)
    (hnew : uri ∉ analysis.visited) : analyzeQueueM look (fuel + 1) analysis
      = if analysis.workspace.settings.includeRoots.isEmpty then
          analyzeQueueM look fuel (analysis.advance uri rest)
        else
          searchAllM (look uri) (analysis.advance uri rest)
            (analysis.workspace.analyzeDocument uri).2 >>= analyzeQueueM look fuel := by
  rw [analyzeQueueM, hqueue]
  simp only [List.contains_iff_mem, hnew, if_false, analyzeDocument_settings]
  rfl

end Looking

section Queue

variable (system : FileSystem) (fuel : Nat) {analysis : Analysis} {uri : Uri} {rest : List Uri}

theorem analyzeQueue_nil (hqueue : analysis.queue = []) :
    analyzeQueue system fuel analysis = analysis.workspace :=
  analyzeQueueM_nil (m := Id) _ fuel hqueue

theorem analyzeQueue_skip (hqueue : analysis.queue = uri :: rest)
    (hold : uri ∈ analysis.visited) : analyzeQueue system (fuel + 1) analysis
      = analyzeQueue system fuel { analysis with queue := rest } :=
  analyzeQueueM_skip (m := Id) _ fuel hqueue hold

theorem analyzeQueue_cons (hqueue : analysis.queue = uri :: rest)
    (hnew : uri ∉ analysis.visited) : analyzeQueue system (fuel + 1) analysis
      = analyzeQueue system fuel
        (if analysis.workspace.settings.includeRoots.isEmpty then analysis.advance uri rest
         else searchAll system (analysis.advance uri rest)
          (analysis.workspace.analyzeDocument uri).2) := by
  refine (analyzeQueueM_cons (m := Id) _ fuel hqueue hnew).trans ?_
  split <;> rfl

end Queue

/-- What every step of an analysis keeps holds of the analysis that it ends with. -/
theorem analyzeQueue_keeps {I : Analysis → Prop} {system : FileSystem}
    (hskip : ∀ {analysis : Analysis} (rest : List Uri), I analysis →
      I { analysis with queue := rest })
    (hadvance : ∀ {analysis : Analysis} {uri : Uri} {rest : List Uri},
      analysis.queue = uri :: rest → I analysis → I (analysis.advance uri rest))
    (hsearch : ∀ {analysis : Analysis} (path : String),
      analysis.loaded < analysis.workspace.settings.maxDiskIncludes → I analysis →
      I (search system analysis path))
    (fuel : Nat) {analysis : Analysis} (h : I analysis) :
    ∃ last, I last ∧ analyzeQueue system fuel analysis = last.workspace := by
  induction fuel generalizing analysis with
  | zero => exact ⟨analysis, h, rfl⟩
  | succ fuel ih =>
    cases hqueue : analysis.queue with
    | nil => exact ⟨analysis, h, analyzeQueue_nil system _ hqueue⟩
    | cons uri rest =>
      by_cases hvisited : uri ∈ analysis.visited
      · rw [analyzeQueue_skip system fuel hqueue hvisited]
        exact ih (hskip rest h)
      · rw [analyzeQueue_cons system fuel hqueue hvisited]
        split
        · exact ih (hadvance hqueue h)
        · exact ih (searchAll_keeps hsearch _ (hadvance hqueue h))

/-! ## Settings -/

theorem search_settings (system : FileSystem) (analysis : Analysis) (path : String) :
    (search system analysis path).workspace.settings = analysis.workspace.settings := by
  rcases search_cases system analysis path with heq | ⟨paths, heq⟩ | ⟨uri, chars, -, -, heq⟩
  · rw [heq]
  · rw [heq]
  · rw [heq, load_settings]

theorem analyzeQueue_settings (system : FileSystem) (fuel : Nat) (analysis : Analysis) :
    (analyzeQueue system fuel analysis).settings = analysis.workspace.settings := by
  obtain ⟨last, hlast, heq⟩ := analyzeQueue_keeps
    (I := fun here => here.workspace.settings = analysis.workspace.settings)
    (fun _ h => h) (fun _ h => (analyzeDocument_settings _ _).trans h)
    (fun path _ h => (search_settings system _ path).trans h) fuel rfl
  rw [heq]
  exact hlast

theorem analyze_settings (workspace : Workspace) (system : FileSystem) (uri : Uri) :
    (workspace.analyze system uri).settings = workspace.settings :=
  analyzeQueue_settings system _ _

theorem applyChanges_settings {system : FileSystem} {uri : Uri} {version : Int}
    {changes : List Change} {workspace changed : Workspace}
    (hrun : applyChanges system uri version changes workspace = .ok changed) :
    changed.settings = workspace.settings := by
  induction changes generalizing workspace with
  | nil =>
    obtain rfl := Except.ok.inj hrun
    rfl
  | cons change rest ih =>
    cases change with
    | full chars =>
      rw [applyChanges] at hrun
      rw [ih hrun, load_settings]
    | replace range chars =>
      rw [applyChanges] at hrun
      split at hrun
      · rw [ih hrun]
        rfl
      · split at hrun
        · cases hrun
        · split at hrun
          · cases hrun
          · obtain rfl := Except.ok.inj hrun
            rfl

namespace Preserved

variable {P : Workspace → List Uri → Prop}

theorem search (h : Preserved P) (system : FileSystem) {analysis : Analysis} (path : String)
    (hP : P analysis.workspace analysis.queue) (hunder : analysis.Underway)
    (hloaded : analysis.loaded < analysis.workspace.settings.maxDiskIncludes) :
    P (search system analysis path).workspace (search system analysis path).queue ∧
      (Workspace.search system analysis path).Underway ∧
      (Workspace.search system analysis path).left ≤ analysis.left := by
  rw [← and_assoc]
  refine ⟨?_, search_left system path hloaded⟩
  rcases search_cases system analysis path with heq | ⟨paths, heq⟩ | ⟨uri, chars, hnew, -, heq⟩
  · rw [heq]
    exact ⟨hP, hunder⟩
  · rw [heq]
    exact ⟨h.missing paths hP, ⟨hunder.stored, hunder.once⟩⟩
  · rw [heq]
    refine ⟨h.discover chars hP hnew, ⟨fun other hmem => ?_, ?_⟩⟩
    · rw [contains_load]
      simp only [List.mem_append, List.mem_singleton] at hmem
      rcases hmem with (hmem | rfl) | hmem
      · exact .inr (hunder.stored other (List.mem_append_left _ hmem))
      · exact .inl rfl
      · exact .inr (hunder.stored other (List.mem_append_right _ hmem))
    · have hfresh : uri ∉ analysis.queue ++ analysis.visited := by
        intro hmem
        rw [hunder.stored uri hmem] at hnew
        cases hnew
      have honce := List.nodup_cons.mpr ⟨hfresh, hunder.once⟩
      simpa using (List.perm_middle (a := uri)).nodup_iff.mpr honce

theorem searchAll (h : Preserved P) (system : FileSystem) {analysis : Analysis}
    (paths : List String) (hP : P analysis.workspace analysis.queue)
    (hunder : analysis.Underway) :
    P (searchAll system analysis paths).workspace (searchAll system analysis paths).queue ∧
      (Workspace.searchAll system analysis paths).Underway ∧
      (Workspace.searchAll system analysis paths).left ≤ analysis.left := by
  have hkeeps : ∀ {here : Analysis} (path : String),
      here.loaded < here.workspace.settings.maxDiskIncludes →
      P here.workspace here.queue ∧ here.Underway ∧ here.left ≤ analysis.left →
      P (Workspace.search system here path).workspace (Workspace.search system here path).queue ∧
        (Workspace.search system here path).Underway ∧
        (Workspace.search system here path).left ≤ analysis.left := by
    rintro here path hloaded ⟨hP, hunder, hleft⟩
    obtain ⟨hP', hunder', hleft'⟩ := h.search system path hP hunder hloaded
    exact ⟨hP', hunder', Nat.le_trans hleft' hleft⟩
  exact searchAll_keeps hkeeps paths ⟨hP, hunder, Nat.le_refl _⟩

/-! ## Analysing -/

/-- The worklist is used up in the end, whatever comes in from disk. -/
theorem analyzeQueue (h : Preserved P) (system : FileSystem) {fuel : Nat}
    {analysis : Analysis} (hP : P analysis.workspace analysis.queue) (hunder : analysis.Underway)
    (hfuel : analysis.left ≤ fuel) : P (analyzeQueue system fuel analysis) [] := by
  induction fuel generalizing analysis with
  | zero =>
    have hnil : analysis.queue = [] := by
      unfold Analysis.left at hfuel
      exact List.length_eq_zero_iff.mp (by omega)
    rwa [hnil] at hP
  | succ fuel ih =>
    cases hqueue : analysis.queue with
    | nil =>
      rw [analyzeQueue_nil _ _ hqueue]
      rwa [hqueue] at hP
    | cons uri rest =>
      obtain ⟨hcontains, hnew, hunder', hleft⟩ := hunder.advance hqueue
      rw [hqueue] at hP
      have hP' : P (analysis.advance uri rest).workspace (analysis.advance uri rest).queue :=
        h.analyze hP hcontains
      rw [analyzeQueue_cons system fuel hqueue hnew]
      split
      · exact ih hP' hunder' (by omega)
      · obtain ⟨hP'', hunder'', hleft'⟩ := h.searchAll system
          (analysis.workspace.analyzeDocument uri).2 hP' hunder'
        exact ih hP'' hunder'' (by omega)

theorem analyzed (h : Preserved P) (system : FileSystem) {workspace : Workspace} {uri : Uri}
    (hP : P workspace [uri]) (hcontains : workspace.contains uri = true) :
    P (workspace.analyze system uri) [] := by
  refine h.analyzeQueue system hP ⟨?_, ?_⟩ ?_
  · simpa using hcontains
  · simp
  · simp [Analysis.left, Nat.add_comm]

end Preserved

/-- Analysing a document that is not there only gives it to those that wait for it. -/
theorem analyze_of_not_contains {workspace : Workspace} {uri : Uri} (system : FileSystem)
    (h : workspace.contains uri = false) :
    workspace.analyze system uri = workspace.cleared uri := by
  rw [analyze, analyzeQueue_cons system _ rfl List.not_mem_nil]
  simp only [analyzeDocument_of_not_contains h, Analysis.advance, searchAll_nil, ite_self]
  exact analyzeQueue_nil _ _ rfl

/-! ## Whole runs -/

namespace Upheld

variable {P : Workspace → List Uri → Prop}

theorem applyChanges (h : Upheld P) {system : FileSystem} {uri : Uri} {version : Int}
    {changes : List Change} {workspace changed : Workspace} (hP : P workspace [uri])
    (hrun : applyChanges system uri version changes workspace = .ok changed) :
    P changed [uri] ∧
      (changes ≠ [] ∨ workspace.contains uri = true → changed.contains uri = true) := by
  have hone : [uri] ++ [uri] ⊆ [uri] := by simp
  induction changes generalizing workspace with
  | nil =>
    obtain rfl := Except.ok.inj hrun
    exact ⟨hP, by simp⟩
  | cons change rest ih =>
    have hload : ∀ chars, P (workspace.load uri (some version) chars) [uri] ∧
        (workspace.load uri (some version) chars).contains uri = true := fun chars =>
      ⟨h.weaken (h.load uri (some version) chars hP) hone,
        contains_load.mpr (.inl rfl)⟩
    cases change with
    | full chars =>
      obtain ⟨hchanged, hcontains⟩ := ih (hload chars).1 hrun
      exact ⟨hchanged, fun _ => hcontains (.inr (hload chars).2)⟩
    | replace range chars =>
      rw [Workspace.applyChanges] at hrun
      split at hrun
      · rename_i document hget
        have huri : document.uri = uri := by simpa using List.find?_some hget
        obtain ⟨hchanged, hcontains⟩ :=
          ih (h.weaken (h.edit version range chars hP hget) hone) hrun
        refine ⟨hchanged, fun _ => hcontains (.inr ?_)⟩
        exact contains_put.mpr (.inl huri.symm)
      · split at hrun
        · cases hrun
        · split at hrun
          · cases hrun
          · obtain rfl := Except.ok.inj hrun
            exact ⟨(hload _).1, fun _ => (hload _).2⟩

theorem openDocument (h : Upheld P) {workspace : Workspace} (hP : P workspace [])
    (system : FileSystem) (uri : Uri) (version : Int) (chars : List Char) :
    P (workspace.openDocument system uri version chars).1 [] := by
  unfold Workspace.openDocument
  split
  · exact hP
  · exact h.preserved.analyzed system (h.load uri (some version) chars hP)
      (contains_load.mpr (.inl rfl))

/-- A change that says what the document holds, or finds it there. -/
theorem changeDocument (h : Upheld P) {workspace changed : Workspace} (hP : P workspace [])
    {system : FileSystem} {uri : Uri} {version : Int} {changes : List Change}
    (hthere : changes ≠ [] ∨ workspace.contains uri = true)
    (hrun : workspace.changeDocument system uri version changes = .ok changed) : P changed [] := by
  unfold Workspace.changeDocument at hrun
  split at hrun
  · rename_i between hbetween
    obtain rfl := Except.ok.inj hrun
    obtain ⟨hchanged, hcontains⟩ := h.applyChanges (h.weaken hP (by simp)) hbetween
    exact h.preserved.analyzed system hchanged (hcontains hthere)
  · cases hrun

end Upheld

namespace Invariant

variable {allowed : Settings → Prop} {P : Workspace → List Uri → Prop}

theorem analyze_any (h : Invariant allowed P) (system : FileSystem) {workspace : Workspace}
    {uri : Uri} (hP : P workspace []) : P (workspace.analyze system uri) [] := by
  cases hcontains : workspace.contains uri with
  | false =>
    rw [analyze_of_not_contains system hcontains]
    exact h.clear hP hcontains
  | true => exact h.preserved.analyzed system (h.weaken hP (by simp)) hcontains

/-- Every operation keeps an invariant. -/
theorem apply (h : Invariant allowed P) {workspace : Workspace} (hP : P workspace [])
    {operation : Operation} (hallowed : operation.Within allowed) :
    P (workspace.apply operation) [] := by
  cases operation with
  | opened system uri version chars => exact h.openDocument hP system uri version chars
  | changed system uri version changes =>
    simp only [Workspace.apply]
    cases hrun : workspace.changeDocument system uri version changes with
    | error error => exact hP
    | ok changed =>
      cases changes with
      | nil =>
        obtain rfl := Except.ok.inj hrun
        exact h.analyze_any system hP
      | cons change rest => exact h.changeDocument hP (.inl (by simp)) hrun
  | closed uri =>
    simp only [Workspace.apply, closeDocument]
    split
    · exact h.close hP
    · exact hP
  | analyzed system uri => exact h.analyze_any system hP
  | configured settings => exact h.configure hP hallowed
  | reset => exact h.reset hP

/-- An invariant holds after every run. -/
theorem run (h : Invariant allowed P) {workspace : Workspace} (hP : P workspace [])
    {operations : List Operation} (hallowed : ∀ operation ∈ operations, operation.Within allowed) :
    P (workspace.run operations) [] := by
  induction operations generalizing workspace with
  | nil => exact hP
  | cons operation rest ih =>
    refine ih (h.apply hP (hallowed operation List.mem_cons_self)) fun other hmem => ?_
    exact hallowed other (List.mem_cons_of_mem _ hmem)

end Invariant

end Workspace

end Azsl
