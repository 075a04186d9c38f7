/-
Azsl.Proofs.Workspace.Worklist — an analysis ends, is bounded and leaves all else alone.

An analysis works off a list of documents that grows meanwhile. `WorksOff` says what this means
without a bound on its steps; the list is always used up (`exists_worksOff`), and counting the
steps changes nothing (`WorksOff.analyzeQueue_eq`). `Progress` compares the workspace with the
one that the analysis began with, and each turn keeps it. So an analysis looks at no document
twice, brings in no more files than the settings allow, and other documents only gain includes
(`analyze_settles`).
-/
import Azsl.Proofs.Workspace.Loading

namespace Azsl

/-! ## Documents that stay -/

namespace Document

/-- A later state of a document, with the text and the tree that it had. -/
structure Retains (document later : Document) : Prop where
  uri : later.uri = document.uri
  version : later.version = document.version
  text : later.text = document.text
  tree : later.tree = document.tree

/-- A later state of a document that has gained some includes, none of which it had, and is the
same otherwise. -/
structure Gains (document later : Document) : Prop extends Retains document later where
  functions : later.functions = document.functions
  includes : ∃ gained, later.includes = document.includes ++ gained ∧ gained.Nodup ∧
    ∀ target ∈ gained, target ∉ document.includes

variable {document later last : Document}

theorem Retains.trans (h : document.Retains later) (h' : later.Retains last) :
    document.Retains last where
  uri := h'.uri.trans h.uri
  version := h'.version.trans h.version
  text := h'.text.trans h.text
  tree := h'.tree.trans h.tree

theorem Gains.refl (document : Document) : document.Gains document where
  uri := rfl
  version := rfl
  text := rfl
  tree := rfl
  functions := rfl
  includes := ⟨[], by simp⟩

theorem Gains.trans (h : document.Gains later) (h' : later.Gains last) : document.Gains last where
  toRetains := h.toRetains.trans h'.toRetains
  functions := h'.functions.trans h.functions
  includes := by
    obtain ⟨gained, hgained, hnodup, hnew⟩ := h.includes
    obtain ⟨gained', hgained', hnodup', hnew'⟩ := h'.includes
    rw [hgained] at hnew'
    refine ⟨gained ++ gained', by rw [hgained', hgained, List.append_assoc],
      List.nodup_append.mpr ⟨hnodup, hnodup', ?_⟩, fun target hmem => ?_⟩
    · rintro target hmem _ hmem' rfl
      exact hnew' target hmem' (List.mem_append_right _ hmem)
    · rcases List.mem_append.mp hmem with hmem | hmem
      · exact hnew target hmem
      · exact fun hold => hnew' target hmem (List.mem_append_left _ hold)

theorem gains_addInclude (document : Document) (uri : Uri) :
    document.Gains (document.addInclude uri) := by
  unfold addInclude
  split
  · exact .refl document
  · rename_i hnew
    refine ⟨⟨rfl, rfl, rfl, rfl⟩, rfl, [uri], rfl, List.nodup_singleton uri, ?_⟩
    simpa using hnew

end Document

namespace Workspace

/-! ## Working off a list -/

/-- An analysis when it begins. -/
def Analysis.begin (workspace : Workspace) (uri : Uri) : Analysis := ⟨workspace, [uri], [], 0⟩

/-- An analysis when the next document of the queue has been analysed, and what it includes has
been looked for on disk. -/
def Analysis.turn (system : FileSystem) (analysis : Analysis) (uri : Uri) (rest : List Uri) :
    Analysis :=
  if analysis.workspace.settings.includeRoots.isEmpty then analysis.advance uri rest
  else searchAll system (analysis.advance uri rest) (analysis.workspace.analyzeDocument uri).2

/-- The queue is worked off, in as many steps as that takes: the documents that are analysed, in
order, and what the analysis has come to in the end. -/
inductive WorksOff (system : FileSystem) : Analysis → List Uri → Analysis → Prop
  | done {analysis} : analysis.queue = [] → WorksOff system analysis [] analysis
  /-- A document that has been analysed before is not analysed again. -/
  | skip {analysis uri rest uris last} : analysis.queue = uri :: rest → uri ∈ analysis.visited →
      WorksOff system { analysis with queue := rest } uris last →
      WorksOff system analysis uris last
  | analyze {analysis uri rest uris last} : analysis.queue = uri :: rest →
      uri ∉ analysis.visited → WorksOff system (analysis.turn system uri rest) uris last →
      WorksOff system analysis (uri :: uris) last

variable {system : FileSystem} {analysis last : Analysis} {uri : Uri} {rest uris : List Uri}

theorem Analysis.turn_visited :
    (analysis.turn system uri rest).visited = uri :: analysis.visited := by
  unfold turn
  split
  · rfl
  · exact searchAll_visited ..

theorem Analysis.turn_left (system : FileSystem) (hqueue : analysis.queue = uri :: rest) :
    (analysis.turn system uri rest).left + 1 ≤ analysis.left := by
  have hadvance := advance_left hqueue
  unfold turn
  split
  · exact hadvance
  · have hsearch := searchAll_left system (analysis.advance uri rest)
      (analysis.workspace.analyzeDocument uri).2
    omega

theorem Analysis.skip_left (hqueue : analysis.queue = uri :: rest) :
    ({ analysis with queue := rest } : Analysis).left + 1 = analysis.left := by
  simp only [left, hqueue, List.length_cons]
  omega

/-- Every queue is used up in the end: a step takes a document off it, and what joins it counts
against the limit. -/
theorem exists_worksOff (system : FileSystem) (analysis : Analysis) :
    ∃ uris last, WorksOff system analysis uris last := by
  induction hleft : analysis.left using Nat.strongRecOn generalizing analysis with
  | ind left ih =>
    cases hqueue : analysis.queue with
    | nil => exact ⟨[], analysis, .done hqueue⟩
    | cons uri rest =>
      by_cases hvisited : uri ∈ analysis.visited
      · have hskip := Analysis.skip_left hqueue
        obtain ⟨uris, last, hrest⟩ := ih _ (by omega) { analysis with queue := rest } rfl
        exact ⟨uris, last, .skip hqueue hvisited hrest⟩
      · have hturn := Analysis.turn_left system hqueue
        obtain ⟨uris, last, hrest⟩ := ih _ (by omega) (analysis.turn system uri rest) rfl
        exact ⟨uri :: uris, last, .analyze hqueue hvisited hrest⟩

namespace WorksOff

/-- Counting the steps makes no difference as long as they suffice. -/
theorem analyzeQueue_eq (h : WorksOff system analysis uris last) {fuel : Nat}
    (hfuel : analysis.left ≤ fuel) : analyzeQueue system fuel analysis = last.workspace := by
  induction h generalizing fuel with
  | done hqueue => exact analyzeQueue_nil system fuel hqueue
  | skip hqueue hvisited _ ih =>
    have hskip := Analysis.skip_left hqueue
    obtain ⟨fuel, rfl⟩ : ∃ n, fuel = n + 1 := ⟨fuel - 1, by omega⟩
    rw [analyzeQueue_skip system fuel hqueue hvisited]
    exact ih (by omega)
  | analyze hqueue hvisited _ ih =>
    have hturn := Analysis.turn_left system hqueue
    obtain ⟨fuel, rfl⟩ : ∃ n, fuel = n + 1 := ⟨fuel - 1, by omega⟩
    rw [analyzeQueue_cons system fuel hqueue hvisited]
    exact ih (by omega)

theorem queue_eq_nil (h : WorksOff system analysis uris last) : last.queue = [] := by
  induction h with
  | done hqueue => exact hqueue
  | skip _ _ _ ih => exact ih
  | analyze _ _ _ ih => exact ih

theorem visited_eq (h : WorksOff system analysis uris last) :
    last.visited = uris.reverse ++ analysis.visited := by
  induction h with
  | done => rfl
  | skip _ _ _ ih => exact ih
  | analyze _ _ _ ih =>
    rw [ih, Analysis.turn_visited, List.reverse_cons, List.append_assoc]
    rfl

/-- No document is analysed twice. -/
theorem once (h : WorksOff system analysis uris last) :
    uris.Nodup ∧ ∀ uri ∈ uris, uri ∉ analysis.visited := by
  induction h with
  | done => simp
  | skip _ _ _ ih => exact ih
  | analyze _ hvisited _ ih =>
    obtain ⟨hnodup, hnew⟩ := ih
    simp only [Analysis.turn_visited, List.mem_cons, not_or] at hnew
    refine ⟨List.nodup_cons.mpr ⟨fun hmem => (hnew _ hmem).1 rfl, hnodup⟩, ?_⟩
    intro other hmem
    rcases List.mem_cons.mp hmem with rfl | hmem
    · exact hvisited
    · exact (hnew other hmem).2

end WorksOff

/-- An analysis still knows every document that it has to do with after a turn. -/
theorem Analysis.Underway.turn (h : analysis.Underway) (system : FileSystem)
    (hqueue : analysis.queue = uri :: rest) : (analysis.turn system uri rest).Underway := by
  have hpreserved : Preserved fun _ _ => True :=
    ⟨fun _ _ _ => trivial, fun _ _ => trivial, fun _ _ => trivial⟩
  obtain ⟨-, -, hadvance, -⟩ := h.advance hqueue
  unfold Analysis.turn
  split
  · exact hadvance
  · exact (hpreserved.searchAll system _ trivial hadvance).2.1

/-! ## What has been done so far -/

/-- A document is the text of a file that was found for some include. -/
structure FromDisk (system : FileSystem) (workspace : Workspace) (document : Document) : Prop where
  version : document.version = none
  found : ∃ path chars, workspace.Finds system path document.uri chars ∧
    document.text = .ofChars chars ∧ document.tree = parse chars none

/-- A workspace in which a document is being analysed, compared with the one at the start. -/
structure Progress (system : FileSystem) (start : Workspace) (asked : Uri) (analysis : Analysis) :
    Prop where
  settings : analysis.workspace.settings = start.settings
  /-- Only the document that was asked for, and what came in since, is analysed. -/
  concerned : ∀ uri ∈ analysis.queue ++ analysis.visited,
    uri = asked ∨ start.contains uri = false
  counted : ((analysis.workspace.documents.map (·.uri)).filter (!start.contains ·)).length
    ≤ analysis.loaded
  limited : analysis.loaded ≤ start.settings.maxDiskIncludes
  brought : ∀ document ∈ analysis.workspace.documents, start.contains document.uri = false →
    FromDisk system start document ∧ (document.uri ∈ analysis.queue ∨
      document.uri ∈ analysis.visited ∧ document.functions
        = .ofList (Symbols.collect document.text document.tree).functions)
  kept : ∀ document ∈ start.documents, ∃ later ∈ analysis.workspace.documents,
    document.Retains later ∧ (document.uri ≠ asked → document.Gains later)

theorem mem_analyzeDocument_of_ne {workspace : Workspace} {document : Document}
    (hmem : document ∈ (workspace.cleared uri).documents) (hne : document.uri ≠ uri) :
    document ∈ (workspace.analyzeDocument uri).1.documents := by
  cases hget : (workspace.cleared uri).get? uri with
  | none =>
    rw [get?_eq_none_iff, contains_cleared] at hget
    rwa [analyzeDocument_of_not_contains hget]
  | some found =>
    rw [analyzeDocument_eq hget, renew_documents, awaitAll_documents]
    exact List.mem_map.mpr ⟨document, hmem, if_neg hne⟩

/-- Analysing a document only lets others gain includes. -/
theorem exists_gains_of_ne {workspace : Workspace} {document : Document}
    (hmem : document ∈ workspace.documents) (hne : document.uri ≠ uri) :
    ∃ later ∈ (workspace.analyzeDocument uri).1.documents, document.Gains later := by
  obtain ⟨gained, hgained⟩ := deliver_documents (workspace.withdraw uri) uri
  obtain ⟨later, hlater, hgains⟩ :
      ∃ later ∈ (workspace.cleared uri).documents, document.Gains later := by
    rw [cleared, hgained]
    refine ⟨_, List.mem_map_of_mem hmem, ?_⟩
    split
    · exact document.gains_addInclude uri
    · exact .refl document
  exact ⟨later, mem_analyzeDocument_of_ne hlater (hgains.uri ▸ hne), hgains⟩

namespace Progress

variable {start : Workspace} {asked : Uri}

theorem begin (system : FileSystem) (start : Workspace) (asked : Uri) :
    Progress system start asked (.begin start asked) where
  settings := rfl
  concerned uri hmem := by
    left
    simpa [Analysis.begin] using hmem
  counted := by
    have hnone : (start.documents.map (·.uri)).filter (!start.contains ·) = [] := by
      rw [List.filter_eq_nil_iff]
      intro uri hmem
      simp [contains_iff_mem.mpr hmem]
    exact Nat.le_of_eq (congrArg List.length hnone)
  limited := Nat.zero_le _
  brought document hmem hnew := by
    have hold : start.contains document.uri = true := contains_iff.mpr ⟨document, hmem, rfl⟩
    rw [hold] at hnew
    cases hnew
  kept document hmem :=
    ⟨document, hmem, (Document.Gains.refl document).toRetains, fun _ => .refl document⟩

theorem contains (h : Progress system start asked analysis)
    (hcontains : start.contains uri = true) : analysis.workspace.contains uri = true := by
  obtain ⟨document, hmem, rfl⟩ := contains_iff.mp hcontains
  obtain ⟨later, hlater, hretains, -⟩ := h.kept document hmem
  exact contains_iff.mpr ⟨later, hlater, hretains.uri⟩

/-- A file that comes in was not there at the start, either. -/
theorem discover (h : Progress system start asked analysis)
    (hloaded : analysis.loaded < analysis.workspace.settings.maxDiskIncludes) {path : String}
    {chars : List Char} (hnew : analysis.workspace.contains uri = false)
    (hfinds : analysis.workspace.Finds system path uri chars) :
    Progress system start asked
      { analysis with
        workspace := analysis.workspace.load uri none chars
        queue := analysis.queue ++ [uri]
        loaded := analysis.loaded + 1 } where
  settings := h.settings
  concerned other hmem := by
    rw [List.append_assoc, List.singleton_append, List.perm_middle.mem_iff, List.mem_cons] at hmem
    rcases hmem with rfl | hmem
    · refine .inr (Bool.eq_false_iff.mpr fun hcontains => ?_)
      rw [h.contains hcontains] at hnew
      cases hnew
    · exact h.concerned other hmem
  counted := by
    rw [((load_uris_perm hnew).filter _).length_eq, List.filter_cons]
    have hcounted := h.counted
    split
    · exact Nat.succ_le_succ hcounted
    · exact Nat.le_succ_of_le hcounted
  limited := by
    rw [h.settings] at hloaded
    exact hloaded
  brought document hmem hstart := by
    rcases mem_load.mp hmem with rfl | ⟨hmem, -⟩
    · rw [Finds, h.settings] at hfinds
      exact ⟨⟨rfl, path, chars, hfinds, rfl, rfl⟩,
        .inl (List.mem_append_right _ List.mem_cons_self)⟩
    · obtain ⟨hfile, hstate⟩ := h.brought document hmem hstart
      exact ⟨hfile, hstate.imp_left (List.mem_append_left _)⟩
  kept document hmem := by
    obtain ⟨later, hlater, hkept⟩ := h.kept document hmem
    refine ⟨later, mem_load.mpr (.inr ⟨hlater, ?_⟩), hkept⟩
    rintro rfl
    rw [contains_iff.mpr ⟨later, hlater, rfl⟩] at hnew
    cases hnew

theorem search (h : Progress system start asked analysis) (path : String)
    (hloaded : analysis.loaded < analysis.workspace.settings.maxDiskIncludes) :
    Progress system start asked (search system analysis path) := by
  rcases search_cases system analysis path with
    heq | ⟨paths, heq⟩ | ⟨uri, chars, hnew, hfinds, heq⟩
  · rwa [heq]
  · rw [heq]
    exact ⟨h.settings, h.concerned, h.counted, h.limited, h.brought, h.kept⟩
  · rw [heq]
    exact h.discover hloaded hnew hfinds

theorem searchAll (h : Progress system start asked analysis) (paths : List String) :
    Progress system start asked (searchAll system analysis paths) :=
  searchAll_keeps (fun path hloaded h => h.search path hloaded) paths h

theorem advance (h : Progress system start asked analysis)
    (hqueue : analysis.queue = uri :: rest) :
    Progress system start asked (analysis.advance uri rest) where
  settings := (analyzeDocument_settings _ uri).trans h.settings
  concerned other hmem := by
    have hold := h.concerned other
    rw [hqueue] at hold
    exact hold (List.perm_middle.mem_iff.mp hmem)
  counted := by
    rw [Analysis.advance, analyzeDocument_uris]
    exact h.counted
  limited := h.limited
  brought document hmem hstart := by
    obtain ⟨old, hold, functions, includes, rfl, hfunctions⟩ := mem_analyzeDocument hmem
    obtain ⟨hfile, hstate⟩ := h.brought old hold hstart
    refine ⟨⟨hfile.version, hfile.found⟩, ?_⟩
    by_cases heq : old.uri = uri
    · rw [if_pos heq] at hfunctions
      exact .inr ⟨heq ▸ List.mem_cons_self, hfunctions⟩
    · rw [if_neg heq] at hfunctions
      rw [hqueue] at hstate
      rcases hstate with hmem | ⟨hvisited, hcurrent⟩
      · exact .inl (List.mem_of_ne_of_mem heq hmem)
      · exact .inr ⟨List.mem_cons_of_mem _ hvisited, hfunctions.trans hcurrent⟩
  kept document hmem := by
    obtain ⟨later, hlater, hretains, hgains⟩ := h.kept document hmem
    by_cases heq : later.uri = uri
    · -- A document of the start is only ever analysed if it is the one that was asked for.
      have hasked : document.uri = asked := by
        rw [← hretains.uri, heq]
        refine (h.concerned uri (by simp [hqueue])).resolve_right fun hnew => ?_
        rw [contains_iff.mpr ⟨document, hmem, hretains.uri.symm.trans heq⟩] at hnew
        cases hnew
      have hget := get?_eq_some_iff.mpr ⟨hlater, rfl⟩
      obtain ⟨functions, includes, hnext⟩ := get?_analyzeDocument hget uri
      refine ⟨_, (get?_eq_some_iff.mp hnext).1, ?_,
        fun hne => absurd hasked hne⟩
      exact hretains.trans ⟨rfl, rfl, rfl, rfl⟩
    · obtain ⟨next, hnext, hmore⟩ := exists_gains_of_ne hlater heq
      exact ⟨next, hnext, hretains.trans hmore.toRetains, fun hne => (hgains hne).trans hmore⟩

theorem turn (h : Progress system start asked analysis) (hqueue : analysis.queue = uri :: rest) :
    Progress system start asked (analysis.turn system uri rest) := by
  unfold Analysis.turn
  split
  · exact h.advance hqueue
  · exact (h.advance hqueue).searchAll _

theorem worksOff (h : Progress system start asked analysis) (hunder : analysis.Underway)
    (hrun : WorksOff system analysis uris last) : Progress system start asked last := by
  induction hrun with
  | done => exact h
  | skip hqueue hvisited _ =>
    obtain ⟨-, hnew, -⟩ := hunder.advance hqueue
    exact absurd hvisited hnew
  | analyze hqueue _ _ ih => exact ih (h.turn hqueue) (hunder.turn system hqueue)

end Progress

/-! ## Whole analyses -/

/-- Nothing is looked for on disk when the document is not there, so one turn is all. -/
theorem queue_turn_of_not_contains {workspace : Workspace} (system : FileSystem)
    (h : workspace.contains uri = false) :
    ((Analysis.begin workspace uri).turn system uri []).queue = [] := by
  have hnone : (workspace.analyzeDocument uri).2 = [] := by
    rw [analyzeDocument_of_not_contains h]
  unfold Analysis.turn
  split
  · rfl
  · rw [Analysis.begin, hnone]
    rfl

/-- The workspace that an analysis leaves is compared with the one it began with. -/
theorem WorksOff.progress {workspace : Workspace}
    (h : WorksOff system (.begin workspace uri) uris last) :
    Progress system workspace uri last := by
  have hbegin : Progress system workspace uri (.begin workspace uri) := .begin system workspace uri
  cases hcontains : workspace.contains uri with
  | true =>
    have hunder : (Analysis.begin workspace uri).Underway :=
      ⟨by simpa [Analysis.begin] using hcontains, by simp [Analysis.begin]⟩
    exact hbegin.worksOff hunder h
  | false =>
    have hnil := queue_turn_of_not_contains system hcontains
    cases h with
    | done hqueue => cases hqueue
    | skip _ hvisited _ => cases hvisited
    | analyze hqueue _ hrest =>
      obtain ⟨rfl, rfl⟩ := List.cons.inj hqueue
      cases hrest with
      | done _ => exact hbegin.turn rfl
      | skip hqueue _ _ => cases hqueue.symm.trans hnil
      | analyze hqueue _ _ => cases hqueue.symm.trans hnil

/-- What an analysis makes of a workspace, when it has been asked for one document and has
analysed some. -/
structure Settles (system : FileSystem) (before : Workspace) (asked : Uri) (analyzed : List Uri)
    (after : Workspace) : Prop where
  settings : after.settings = before.settings
  /-- No document is analysed twice, and of those that were there only the one asked for is. -/
  once : analyzed.Nodup
  concerned : ∀ uri ∈ analyzed, uri = asked ∨ before.contains uri = false
  /-- No more documents come in than the settings allow. -/
  bounded : (after.documents.filter (!before.contains ·.uri)).length
    ≤ before.settings.maxDiskIncludes
  /-- What comes in is the text of a file, and has been analysed. -/
  brought : ∀ document ∈ after.documents, before.contains document.uri = false →
    FromDisk system before document ∧ document.uri ∈ analyzed ∧
      document.functions = .ofList (Symbols.collect document.text document.tree).functions
  /-- What was there has the text that it had, and may only have gained includes unless it is the
  document asked for. -/
  kept : ∀ document ∈ before.documents, ∃ later, after.get? document.uri = some later ∧
    document.Retains later ∧ (document.uri ≠ asked → document.Gains later)

theorem Progress.settles {workspace : Workspace} (h : Progress system workspace uri last)
    (hrun : WorksOff system (.begin workspace uri) uris last) :
    Settles system workspace uri uris last.workspace := by
  have hvisited : last.visited = uris.reverse := by
    rw [hrun.visited_eq]
    exact List.append_nil _
  refine ⟨h.settings, hrun.once.1, fun other hmem => ?_, ?_, fun document hmem hnew => ?_,
    fun document hmem => ?_⟩
  · refine h.concerned other (List.mem_append_right _ ?_)
    rwa [hvisited, List.mem_reverse]
  · have hcounted := h.counted
    rw [List.filter_map, List.length_map] at hcounted
    exact Nat.le_trans hcounted h.limited
  · obtain ⟨hfile, hstate⟩ := h.brought document hmem hnew
    rw [hrun.queue_eq_nil, hvisited, List.mem_reverse] at hstate
    exact ⟨hfile, hstate.resolve_left List.not_mem_nil⟩
  · obtain ⟨later, hlater, hretains, hgains⟩ := h.kept document hmem
    exact ⟨later, get?_eq_some_iff.mpr ⟨hlater, hretains.uri⟩, hretains, hgains⟩

/-- Whatever includes what, an analysis comes to an end. It leaves the workspace that counting
its steps gives as well, has analysed no document twice, has brought in no more files than the
settings allow, and has changed nothing else but includes that others gained. -/
theorem analyze_settles (workspace : Workspace) (system : FileSystem) (uri : Uri) :
    (∃ uris last, WorksOff system (.begin workspace uri) uris last) ∧
      ∀ uris last, WorksOff system (.begin workspace uri) uris last →
        last.workspace = workspace.analyze system uri ∧
          Settles system workspace uri uris (workspace.analyze system uri) := by
  refine ⟨exists_worksOff system _, fun uris last hrun => ?_⟩
  have heq : last.workspace = workspace.analyze system uri :=
    (hrun.analyzeQueue_eq (by simp [Analysis.begin, Analysis.left, Nat.add_comm])).symm
  exact ⟨heq, heq ▸ hrun.progress.settles hrun⟩

/-- A file that includes itself and another one, which includes the first. -/
def circularFiles : FileSystem :=
  (FileSystem.empty.write ["a.azsli"]
      (.text "#include <a.azsli>\n#include <b.azsli>\n".toList)).write
    ["b.azsli"] (.text "#include <a.azsli>\n".toList)

theorem analyze_settles_circle :
    ∃ uris last, WorksOff circularFiles
        (.begin (including "#include <a.azsli>") (rootFile "m.azsl")) uris last ∧
      Settles circularFiles (including "#include <a.azsli>") (rootFile "m.azsl") uris
        last.workspace ∧
      last.workspace.documents.map (·.uri)
        = [rootFile "a.azsli", rootFile "b.azsli", rootFile "m.azsl"] := by
  obtain ⟨⟨uris, last, hrun⟩, hsettles⟩ :=
    analyze_settles (including "#include <a.azsli>") circularFiles (rootFile "m.azsl")
  obtain ⟨heq, hsettled⟩ := hsettles uris last hrun
  rw [← heq] at hsettled
  refine ⟨uris, last, hrun, hsettled, ?_⟩
  rw [heq]
  decide +kernel

end Workspace

end Azsl
