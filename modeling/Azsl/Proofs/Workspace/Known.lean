/-
Azsl.Proofs.Workspace.Known — includes name documents that are known.

As long as no document is forgotten, an include list holds what relative includes are joined to
and documents of the workspace, and nothing else (`run_includesKnown`). There is one exception:
an analysis of a document that is not there still gives it to those that wait for it, so a
document may be included that was only ever announced. `announced_never_known` is such a run.
-/
import Azsl.Proofs.Workspace.Waiting

namespace Azsl

/-- An include is what a relative include of the document's text is joined to. -/
def Document.Joins (document : Document) (target : Uri) : Prop :=
  ∃ path ∈ document.includePaths, Include.isRelative path = true ∧
    Include.resolveRelative document.uri path = .ok target

namespace Workspace

/-! ## One step -/

/-- Whatever is analysed, the includes of documents that are not grow by nothing else. -/
theorem mem_cleared_includes {workspace : Workspace} {uri : Uri} {document : Document}
    (h : document ∈ (workspace.cleared uri).documents) :
    ∃ old ∈ workspace.documents, document = { old with includes := document.includes } ∧
      ∀ target ∈ document.includes, target ∈ old.includes ∨ target = uri := by
  obtain ⟨gained, hgained⟩ := deliver_documents (workspace.withdraw uri) uri
  rw [cleared, hgained, List.mem_map] at h
  obtain ⟨old, hold, rfl⟩ := h
  refine ⟨old, hold, ?_⟩
  split
  · obtain ⟨includes, heq⟩ := addInclude_eq old uri
    exact ⟨by rw [heq], fun target htarget => mem_addInclude.mp htarget⟩
  · exact ⟨rfl, fun target htarget => .inl htarget⟩

theorem mem_analyzeDocument_includes {workspace : Workspace} {uri : Uri} {document : Document}
    (h : document ∈ (workspace.analyzeDocument uri).1.documents) (hne : document.uri ≠ uri) :
    ∃ old ∈ workspace.documents, document = { old with includes := document.includes } ∧
      ∀ target ∈ document.includes, target ∈ old.includes ∨ target = uri :=
  mem_cleared_includes (mem_cleared_of_ne h hne)

/-! ## The invariant -/

/-- Every include of a document is joined, known or announced, except for documents still to be
analysed. -/
structure KnownBut (announced : Uri → Prop) (workspace : Workspace) (queue : List Uri) : Prop where
  kept : workspace.settings.evictOnClose = false
  known : ∀ document ∈ workspace.documents, document.uri ∉ queue → ∀ target ∈ document.includes,
    document.Joins target ∨ workspace.contains target = true ∨ announced target

namespace KnownBut

variable {announced : Uri → Prop} {workspace : Workspace} {queue : List Uri} {uri : Uri}

/-- Putting a document in is harmless as long as it is analysed later. -/
theorem put (h : KnownBut announced workspace queue) (document : Document) :
    KnownBut announced (workspace.put document) (queue ++ [document.uri]) where
  kept := h.kept
  known other hmem hqueue target htarget := by
    simp only [List.mem_append, List.mem_singleton, not_or] at hqueue
    rcases mem_put.mp hmem with rfl | ⟨hmem, -⟩
    · exact absurd rfl hqueue.2
    · rcases h.known other hmem hqueue.1 target htarget with hjoins | hknown | hannounced
      · exact .inl hjoins
      · exact .inr (.inl (contains_put.mpr (.inr hknown)))
      · exact .inr (.inr hannounced)

/-- A document that gains an include that is known or announced still has only such. -/
theorem of_gained (h : KnownBut announced workspace queue) {old document : Document}
    (hold : old ∈ workspace.documents) (hqueue : old.uri ∉ queue)
    (hdocument : document = { old with includes := document.includes })
    (hincludes : ∀ target ∈ document.includes, target ∈ old.includes ∨ target = uri)
    (huri : workspace.contains uri = true ∨ announced uri) {target : Uri}
    (htarget : target ∈ document.includes) :
    document.Joins target ∨ workspace.contains target = true ∨ announced target := by
  rcases hincludes target htarget with hmem | rfl
  · refine (h.known old hold hqueue target hmem).imp_left fun hjoins => ?_
    rw [hdocument]
    exact hjoins
  · exact .inr huri

theorem analyze (h : KnownBut announced workspace (uri :: queue))
    (hcontains : workspace.contains uri = true) :
    KnownBut announced (workspace.analyzeDocument uri).1 queue where
  kept := by
    rw [analyzeDocument_settings]
    exact h.kept
  known analyzed hmem hqueue target htarget := by
    rw [contains_analyzeDocument]
    by_cases heq : analyzed.uri = uri
    · obtain ⟨document, hget⟩ := Option.isSome_iff_exists.mp hcontains
      obtain ⟨hdocument, huri⟩ := get?_eq_some_iff.mp hget
      obtain ⟨path, hpath, hresolve⟩ :=
        (mem_includes_analyzed hget hmem heq target).mp htarget
      cases hrelative : Include.isRelative path with
      | false => exact .inr (.inl (match_of_resolveInclude? hrelative hresolve).1)
      | true =>
        obtain ⟨old, hold, functions, includes, rfl, -⟩ := mem_analyzeDocument hmem
        obtain rfl := workspace.sorted.eq_of_uri_eq hold hdocument (heq.trans huri.symm)
        refine .inl ⟨path, hpath, hrelative, ?_⟩
        rw [show ({ old with functions := functions, includes := includes } : Document).uri = uri
          from heq]
        exact (resolveInclude?_of_relative hrelative).mp hresolve
    · obtain ⟨old, hold, hother, hincludes⟩ := mem_analyzeDocument_includes hmem heq
      have hqueue' : old.uri ∉ uri :: queue := by
        rw [hother] at heq hqueue
        simpa using ⟨heq, hqueue⟩
      exact h.of_gained hold hqueue' hother hincludes (.inl hcontains) htarget

/-- Giving a document that is not there to those that wait for it announces it. -/
theorem clear (h : KnownBut announced workspace queue) (huri : announced uri) :
    KnownBut announced (workspace.cleared uri) queue where
  kept := by
    rw [cleared_settings]
    exact h.kept
  known document hmem hqueue target htarget := by
    obtain ⟨old, hold, hdocument, hincludes⟩ := mem_cleared_includes hmem
    rw [contains_cleared]
    have hqueue' : old.uri ∉ queue := by
      rw [hdocument] at hqueue
      exact hqueue
    exact h.of_gained hold hqueue' hdocument hincludes (.inr huri) htarget

theorem mono (h : KnownBut announced workspace queue) {others : Uri → Prop}
    (hle : ∀ target, announced target → others target) : KnownBut others workspace queue :=
  { h with
    known := fun document hmem hqueue target htarget =>
      (h.known document hmem hqueue target htarget).imp_right (·.imp_right (hle target)) }

end KnownBut

theorem knownBut_empty (announced : Uri → Prop) {settings : Settings}
    (h : settings.evictOnClose = false) : KnownBut announced (empty settings) [] where
  kept := h
  known _ hmem := by cases hmem

theorem knownBut_upheld (announced : Uri → Prop) : Upheld (KnownBut announced) where
  weaken h hsubset :=
    { h with known := fun document hmem hqueue => h.known document hmem (mt (@hsubset _) hqueue) }
  load _ _ _ h := h.put _
  edit _ _ _ h hget := by
    obtain ⟨-, rfl⟩ := get?_eq_some_iff.mp hget
    exact h.put _
  analyze h hcontains := h.analyze hcontains
  missing _ h := ⟨h.kept, h.known⟩

/-! ## Whole runs -/

/-- The document that an operation analyses without bringing it in. -/
def Operation.announces? : Operation → Option Uri
  | .analyzed _ uri => some uri
  | .changed _ uri _ [] => some uri
  | _ => none

/-- One of some operations analysed a document that was not there. -/
def Announced (workspace : Workspace) (operations : List Operation) (uri : Uri) : Prop :=
  ∃ before operation after, operations = before ++ operation :: after ∧
    operation.announces? = some uri ∧ (workspace.run before).contains uri = false

theorem Announced.append {workspace : Workspace} {operations : List Operation} {uri : Uri}
    (h : workspace.Announced operations uri) (operation : Operation) :
    workspace.Announced (operations ++ [operation]) uri := by
  obtain ⟨before, earlier, after, rfl, hannounces, hcontains⟩ := h
  exact ⟨before, earlier, after ++ [operation], by simp, hannounces, hcontains⟩

namespace KnownBut

variable {announced : Uri → Prop} {workspace : Workspace}

theorem analyze_any (h : KnownBut announced workspace []) (system : FileSystem) (uri : Uri)
    (huri : workspace.contains uri = false → announced uri) :
    KnownBut announced (workspace.analyze system uri) [] := by
  have hupheld := knownBut_upheld announced
  cases hcontains : workspace.contains uri with
  | false =>
    rw [analyze_of_not_contains system hcontains]
    exact h.clear (huri hcontains)
  | true => exact hupheld.preserved.analyzed system (hupheld.weaken h (by simp)) hcontains

/-- Every operation keeps the invariant if what it announces counts as announced. -/
theorem apply (h : KnownBut announced workspace []) {operation : Operation}
    (hallowed : operation.Within (·.evictOnClose = false))
    (hannounced : ∀ uri, operation.announces? = some uri → workspace.contains uri = false →
      announced uri) : KnownBut announced (workspace.apply operation) [] := by
  have hupheld := knownBut_upheld announced
  cases operation with
  | opened system uri version chars => exact hupheld.openDocument h system uri version chars
  | changed system uri version changes =>
    simp only [Workspace.apply]
    cases hrun : workspace.changeDocument system uri version changes with
    | error error => exact h
    | ok changed =>
      cases changes with
      | nil =>
        obtain rfl := Except.ok.inj hrun
        exact h.analyze_any system uri (hannounced uri rfl)
      | cons change rest => exact hupheld.changeDocument h (.inl (by simp)) hrun
  | closed uri =>
    have hopen : workspace.apply (.closed uri) = workspace := by
      simp [Workspace.apply, closeDocument, h.kept]
    rwa [hopen]
  | analyzed system uri => exact h.analyze_any system uri (hannounced uri rfl)
  | configured settings => exact ⟨hallowed, h.known⟩
  | reset => exact knownBut_empty announced h.kept

end KnownBut

theorem run_append_singleton (workspace : Workspace) (operations : List Operation)
    (operation : Operation) :
    workspace.run (operations ++ [operation]) = (workspace.run operations).apply operation := by
  rw [run, run, List.foldl_append, List.foldl_cons, List.foldl_nil]

theorem run_knownBut {settings : Settings} (hsettings : settings.evictOnClose = false)
    {operations : List Operation}
    (hoperations : ∀ operation ∈ operations, operation.Within (·.evictOnClose = false)) :
    KnownBut ((empty settings).Announced operations) ((empty settings).run operations) [] := by
  -- The operations are followed from the last one back: what was announced before it stays so.
  induction operations using List.reverseRecOn with
  | nil => exact knownBut_empty _ hsettings
  | append_singleton front operation ih =>
    have hfront := ih fun other hmem => hoperations other (List.mem_append_left _ hmem)
    rw [run_append_singleton]
    refine (hfront.mono fun target htarget => htarget.append operation).apply
      (hoperations operation (by simp)) fun uri hannounces hcontains => ?_
    exact ⟨front, operation, [], rfl, hannounces, hcontains⟩

/-- After any operations under settings that keep closed documents, every include of a document
is what a relative include of its text is joined to, or a document of the workspace, or was
announced: analysed while it was not there. -/
theorem run_includesKnown {settings : Settings} (hsettings : settings.evictOnClose = false)
    {operations : List Operation}
    (hoperations : ∀ operation ∈ operations, operation.Within (·.evictOnClose = false)) :
    ∀ document ∈ ((empty settings).run operations).documents, ∀ target ∈ document.includes,
      document.Joins target ∨ ((empty settings).run operations).contains target = true ∨
        (empty settings).Announced operations target :=
  fun document hmem target htarget =>
    (run_knownBut hsettings hoperations).known document hmem (by simp) target htarget

/-- A document that waits for one which is announced, but never opened. -/
def announcingOperations : List Operation :=
  [.opened .empty (rootFile "a.azsl") 1 "#include \"b.azsli\"\n".toList,
    .changed .empty (rootFile "b.azsli") 1 []]

theorem includesKnown_announcingOperations :
    Settings.standard.evictOnClose = false ∧
      (∀ operation ∈ announcingOperations, operation.Within (·.evictOnClose = false)) ∧
      ∀ document ∈ ((empty .standard).run announcingOperations).documents,
        ∀ target ∈ document.includes, document.Joins target ∨
          ((empty .standard).run announcingOperations).contains target = true ∨
            (empty .standard).Announced announcingOperations target := by
  have hsettings : Settings.standard.evictOnClose = false := rfl
  have hoperations : ∀ operation ∈ announcingOperations,
      operation.Within (·.evictOnClose = false) := by
    simp [announcingOperations, Operation.Within]
  exact ⟨hsettings, hoperations, run_includesKnown hsettings hoperations⟩

/-- A document may include one that the workspace does not have and never had: the include is
not relative, and nothing waits for it any more. -/
theorem announced_never_known :
    ¬ ∀ (settings : Settings) (operations : List Operation), settings.evictOnClose = false →
      (∀ operation ∈ operations, operation.Within (·.evictOnClose = false)) →
      ∀ document ∈ ((empty settings).run operations).documents, ∀ target ∈ document.includes,
        document.Joins target ∨ ((empty settings).run operations).contains target = true := by
  intro hall
  have hincludes : ((empty .standard).run announcingOperations).documents.map
      (fun document => (document.includePaths, document.includes))
      = [(["b.azsli"], [rootFile "b.azsli"])] := by decide +kernel
  have hunknown : ((empty .standard).run announcingOperations).contains (rootFile "b.azsli")
      = false := by decide +kernel
  obtain ⟨document, hmem, hpair⟩ := List.mem_map.mp
    (hincludes.symm ▸ List.mem_singleton.mpr rfl)
  obtain ⟨hpaths, htargets⟩ := Prod.mk.inj hpair
  have hknown := hall .standard announcingOperations rfl
    (by simp [announcingOperations, Operation.Within]) document hmem (rootFile "b.azsli")
    (by rw [htargets]; exact List.mem_singleton.mpr rfl)
  rcases hknown with ⟨path, hpath, hrelative, -⟩ | hcontains
  · rw [hpaths, List.mem_singleton] at hpath
    rw [hpath] at hrelative
    exact absurd hrelative (by decide)
  · rw [hunknown] at hcontains
    cases hcontains

end Workspace

end Azsl
