/-
Azsl.Proofs.Workspace.Waiting — who waits for which include, and who gets it.

`Waits` reads the list of pending includes as a relation between texts of includes and documents.
Each step of an analysis is described by what it does to this relation and to the includes of
documents. Together they say all that analysing one document does (`waits_analyzeDocument`,
`mem_includes_analyzed`, `mem_includes_other`).
-/
import Azsl.Proofs.Workspace.Run
import Mathlib.Data.List.Induction

namespace Azsl

/-- The paths of the includes of a document. -/
def Document.includePaths (document : Document) : List String :=
  (Symbols.collect document.text document.tree).includes.map (·.path)

namespace Workspace

/-- The identifier of a file in the root directory. -/
def rootFile (name : String) : Uri := ⟨"file", some .empty, "/" ++ name, none, none⟩

/-! ## Waiting -/

/-- A document waits for an include. -/
def Waits (workspace : Workspace) (path : String) (owner : Uri) : Prop :=
  ∃ entry ∈ workspace.pending, entry.path = path ∧ owner ∈ entry.owners

/-- No two pending includes have the same text, each has an owner, and none has one twice. -/
structure Tidy (workspace : Workspace) : Prop where
  paths : (workspace.pending.map (·.path)).Nodup
  owned : ∀ entry ∈ workspace.pending, entry.owners ≠ []
  owners : ∀ entry ∈ workspace.pending, entry.owners.Nodup

theorem tidy_empty (settings : Settings) : (empty settings).Tidy := by
  refine ⟨.nil, ?_, ?_⟩ <;> exact fun _ hmem => (List.not_mem_nil hmem).elim

variable {workspace : Workspace} {path : String} {uri owner : Uri}

theorem Tidy.mem_paths (h : workspace.Tidy) :
    path ∈ workspace.pending.map (·.path) ↔ ∃ owner, workspace.Waits path owner := by
  constructor
  · intro hmem
    obtain ⟨entry, hentry, rfl⟩ := List.mem_map.mp hmem
    obtain ⟨owner, howner⟩ := List.exists_mem_of_ne_nil _ (h.owned entry hentry)
    exact ⟨owner, entry, hentry, rfl, howner⟩
  · rintro ⟨owner, entry, hentry, rfl, -⟩
    exact List.mem_map_of_mem hentry

theorem Tidy.mem_owners (h : workspace.Tidy) {entry : Pending} (hentry : entry ∈ workspace.pending) :
    owner ∈ entry.owners ↔ workspace.Waits entry.path owner := by
  constructor
  · exact fun howner => ⟨entry, hentry, rfl, howner⟩
  · rintro ⟨other, hother, hpath, howner⟩
    rwa [← List.inj_on_of_nodup_map h.paths hother hentry hpath]

theorem mem_withdraw {entry : Pending} :
    entry ∈ (workspace.withdraw uri).pending ↔
      entry.owners ≠ [] ∧ ∃ old ∈ workspace.pending,
        entry = { old with owners := old.owners.filter (· ≠ uri) } := by
  simp only [withdraw, List.mem_filter, List.mem_map, Bool.not_eq_true', List.isEmpty_eq_false_iff]
  rw [and_comm]
  simp only [eq_comm]

theorem waits_withdraw :
    (workspace.withdraw uri).Waits path owner ↔ workspace.Waits path owner ∧ owner ≠ uri := by
  constructor
  · rintro ⟨entry, hentry, rfl, howner⟩
    obtain ⟨-, old, hold, rfl⟩ := mem_withdraw.mp hentry
    obtain ⟨howner, hne⟩ := List.mem_filter.mp howner
    exact ⟨⟨old, hold, rfl, howner⟩, by simpa using hne⟩
  · rintro ⟨⟨old, hold, rfl, howner⟩, hne⟩
    have hkept : owner ∈ old.owners.filter (· ≠ uri) :=
      List.mem_filter.mpr ⟨howner, by simpa using hne⟩
    exact ⟨_, mem_withdraw.mpr ⟨List.ne_nil_of_mem hkept, old, hold, rfl⟩, rfl, hkept⟩

theorem Tidy.withdraw (h : workspace.Tidy) (uri : Uri) : (workspace.withdraw uri).Tidy where
  paths := by
    refine List.Nodup.sublist (List.filter_sublist.map _) ?_
    rw [List.map_map]
    exact h.paths
  owned _ hentry := (mem_withdraw.mp hentry).1
  owners entry hentry := by
    obtain ⟨-, old, hold, rfl⟩ := mem_withdraw.mp hentry
    exact (h.owners old hold).filter _

theorem mem_await {entry : Pending} :
    entry ∈ (workspace.await path uri).pending ↔
      (∃ old ∈ workspace.pending, entry =
        if old.path = path ∧ uri ∉ old.owners then { old with owners := old.owners ++ [uri] }
        else old) ∨
      path ∉ workspace.pending.map (·.path) ∧ entry = ⟨path, [uri]⟩ := by
  have hany : workspace.pending.any (·.path == path) = true ↔
      path ∈ workspace.pending.map (·.path) := by simp
  unfold await
  split
  · rename_i hmem
    simp only [hany.mp hmem, not_true_eq_false, false_and, or_false, List.mem_map, eq_comm]
    simp
  · rename_i hmem
    rw [hany] at hmem
    have hold : ∀ old ∈ workspace.pending, ¬ (old.path = path ∧ uri ∉ old.owners) := by
      rintro old hold ⟨rfl, -⟩
      exact hmem (List.mem_map_of_mem hold)
    simp only [List.mem_append, List.mem_singleton, hmem, not_false_eq_true, true_and]
    refine or_congr_left ⟨fun hentry => ⟨entry, hentry, by rw [if_neg (hold entry hentry)]⟩, ?_⟩
    rintro ⟨old, hmem, rfl⟩
    rwa [if_neg (hold old hmem)]

theorem waits_await {other : String} :
    (workspace.await path uri).Waits other owner ↔
      workspace.Waits other owner ∨ other = path ∧ owner = uri := by
  constructor
  · rintro ⟨entry, hentry, rfl, howner⟩
    rcases mem_await.mp hentry with ⟨old, hold, rfl⟩ | ⟨-, rfl⟩
    · split at howner
      · rename_i hpath
        rw [if_pos hpath]
        rcases List.mem_append.mp howner with howner | howner
        · exact .inl ⟨old, hold, rfl, howner⟩
        · exact .inr ⟨hpath.1, List.mem_singleton.mp howner⟩
      · rename_i hpath
        rw [if_neg hpath]
        exact .inl ⟨old, hold, rfl, howner⟩
    · exact .inr ⟨rfl, List.mem_singleton.mp howner⟩
  · rintro (⟨old, hold, rfl, howner⟩ | ⟨rfl, rfl⟩)
    · refine ⟨_, mem_await.mpr (.inl ⟨old, hold, rfl⟩), ?_, ?_⟩
      · split <;> rfl
      · split
        · exact List.mem_append_left _ howner
        · exact howner
    · by_cases hmem : other ∈ workspace.pending.map (·.path)
      · obtain ⟨old, hold, rfl⟩ := List.mem_map.mp hmem
        refine ⟨_, mem_await.mpr (.inl ⟨old, hold, rfl⟩), ?_, ?_⟩
        · split <;> rfl
        · split
          · exact List.mem_append_right _ List.mem_cons_self
          · rename_i hthere
            simpa using hthere
      · exact ⟨_, mem_await.mpr (.inr ⟨hmem, rfl⟩), rfl, List.mem_cons_self⟩

theorem Tidy.await (h : workspace.Tidy) (path : String) (uri : Uri) :
    (workspace.await path uri).Tidy where
  paths := by
    unfold Workspace.await
    split
    · have hsame : (workspace.pending.map fun entry =>
          if entry.path = path ∧ !entry.owners.contains uri then
            { entry with owners := entry.owners ++ [uri] } else entry).map (·.path)
          = workspace.pending.map (·.path) := by
        rw [List.map_map]
        refine List.map_congr_left fun entry _ => ?_
        simp only [Function.comp]
        split <;> rfl
      simp only [hsame]
      exact h.paths
    · rename_i hmem
      rw [List.map_append]
      refine List.nodup_append.mpr ⟨h.paths, by simp, ?_⟩
      rintro other hother _ hnew rfl
      obtain rfl : other = path := by simpa using hnew
      simp at hmem
      obtain ⟨entry, hentry, heq⟩ := List.mem_map.mp hother
      exact hmem entry hentry heq
  owned entry hentry := by
    rcases mem_await.mp hentry with ⟨old, hold, rfl⟩ | ⟨-, rfl⟩
    · split
      · simp
      · exact h.owned old hold
    · simp
  owners entry hentry := by
    rcases mem_await.mp hentry with ⟨old, hold, rfl⟩ | ⟨-, rfl⟩
    · split
      · rename_i hpath
        refine List.nodup_append.mpr ⟨h.owners old hold, by simp, ?_⟩
        rintro other hother _ hnew rfl
        obtain rfl : other = uri := by simpa using hnew
        exact hpath.2 hother
      · exact h.owners old hold
    · simp

theorem waits_awaitAll {paths : List String} :
    (workspace.awaitAll paths uri).Waits path owner ↔
      workspace.Waits path owner ∨ path ∈ paths ∧ owner = uri := by
  induction paths generalizing workspace with
  | nil => simp [awaitAll]
  | cons first rest ih =>
    have hcons : (workspace.awaitAll (first :: rest) uri)
        = (workspace.await first uri).awaitAll rest uri := rfl
    rw [hcons, ih, waits_await, List.mem_cons]
    tauto

theorem Tidy.awaitAll (h : workspace.Tidy) (paths : List String) (uri : Uri) :
    (workspace.awaitAll paths uri).Tidy := by
  induction paths generalizing workspace with
  | nil => exact h
  | cons first rest ih => exact ih (h.await first uri)

/-! ## Delivering -/

theorem deliver_pending (h : workspace.settings.mayResolve uri = true) :
    (workspace.deliver uri).pending
      = workspace.pending.filter (!Include.isMatch uri ·.path) := by
  rw [deliver, if_pos h]
  rfl

theorem waits_deliver (h : workspace.settings.mayResolve uri = true) :
    (workspace.deliver uri).Waits path owner ↔
      workspace.Waits path owner ∧ Include.isMatch uri path = false := by
  simp only [Waits, deliver_pending h, List.mem_filter, Bool.not_eq_true']
  constructor
  · rintro ⟨entry, ⟨hentry, hmatch⟩, rfl, howner⟩
    exact ⟨⟨entry, hentry, rfl, howner⟩, hmatch⟩
  · rintro ⟨⟨entry, hentry, rfl, howner⟩, hmatch⟩
    exact ⟨entry, ⟨hentry, hmatch⟩, rfl, howner⟩

theorem Tidy.deliver (h : workspace.Tidy) (uri : Uri) : (workspace.deliver uri).Tidy := by
  unfold Workspace.deliver
  split
  · exact ⟨h.paths.sublist (List.filter_sublist.map _),
      fun entry hentry => h.owned entry (List.mem_of_mem_filter hentry),
      fun entry hentry => h.owners entry (List.mem_of_mem_filter hentry)⟩
  · exact h

theorem mem_addInclude {document : Document} {target : Uri} :
    target ∈ (document.addInclude uri).includes ↔ target ∈ document.includes ∨ target = uri := by
  unfold Document.addInclude
  split
  · rename_i hmem
    constructor
    · exact .inl
    · rintro (htarget | rfl)
      · exact htarget
      · simpa using hmem
  · simp

/-- A document that is delivered is included by those that waited for it. -/
theorem mem_deliver (h : workspace.settings.mayResolve uri = true) {document : Document}
    (hmem : document ∈ (workspace.deliver uri).documents) :
    ∃ old ∈ workspace.documents, document = { old with includes := document.includes } ∧
      ∀ target, target ∈ document.includes ↔ target ∈ old.includes ∨
        target = uri ∧ ∃ path, workspace.Waits path old.uri ∧ Include.isMatch uri path = true := by
  rw [deliver, if_pos h] at hmem
  obtain ⟨old, hold, rfl⟩ := List.mem_map.mp hmem
  have hwaits : ((workspace.pending.filter (Include.isMatch uri ·.path)).flatMap
      (·.owners)).contains old.uri = true ↔
      ∃ path, workspace.Waits path old.uri ∧ Include.isMatch uri path = true := by
    simp only [List.contains_iff_mem, List.mem_flatMap, List.mem_filter, Waits]
    constructor
    · rintro ⟨entry, ⟨hentry, hmatch⟩, howner⟩
      exact ⟨entry.path, ⟨entry, hentry, rfl, howner⟩, hmatch⟩
    · rintro ⟨-, ⟨entry, hentry, rfl, howner⟩, hmatch⟩
      exact ⟨entry, ⟨hentry, hmatch⟩, howner⟩
  refine ⟨old, hold, ?_⟩
  split
  · rename_i hgained
    obtain ⟨includes, heq⟩ := addInclude_eq old uri
    refine ⟨by rw [heq], fun target => ?_⟩
    simp [mem_addInclude, hwaits.mp hgained]
  · rename_i hgained
    refine ⟨rfl, fun target => ?_⟩
    simp [mt hwaits.mpr hgained]

theorem waits_cleared (h : workspace.settings.mayResolve uri = true) :
    (workspace.cleared uri).Waits path owner ↔
      workspace.Waits path owner ∧ owner ≠ uri ∧ Include.isMatch uri path = false := by
  rw [cleared, waits_deliver (by exact h), waits_withdraw, and_assoc]

theorem Tidy.cleared (h : workspace.Tidy) (uri : Uri) : (workspace.cleared uri).Tidy :=
  (h.withdraw uri).deliver uri

/-- Clearing leaves a document as it is, but it may be included by others. -/
theorem mem_includes_cleared (h : workspace.settings.mayResolve uri = true) {document : Document}
    (hmem : document ∈ (workspace.cleared uri).documents) (hne : document.uri ≠ uri) :
    ∃ old ∈ workspace.documents, document = { old with includes := document.includes } ∧
      ∀ target, target ∈ document.includes ↔ target ∈ old.includes ∨
        target = uri ∧ ∃ path, workspace.Waits path old.uri ∧ Include.isMatch uri path = true := by
  have hmay : (workspace.withdraw uri).settings.mayResolve uri = true := h
  obtain ⟨old, hold, hdocument, hincludes⟩ := mem_deliver hmay hmem
  refine ⟨old, hold, hdocument, fun target => (hincludes target).trans ?_⟩
  have hold' : old.uri ≠ uri := by
    rw [hdocument] at hne
    exact hne
  simp only [waits_withdraw, hold', ne_eq, not_false_eq_true, and_true]

/-! ## Looking up includes -/

/-- What an include means depends on the identifiers of documents only. -/
theorem resolveInclude?_congr {other : Workspace}
    (h : workspace.documents.map (·.uri) = other.documents.map (·.uri)) (uri : Uri)
    (path : String) : workspace.resolveInclude? uri path = other.resolveInclude? uri path := by
  rw [resolveInclude?, resolveInclude?, h]

theorem resolveInclude?_of_relative (h : Include.isRelative path = true) {target : Uri} :
    workspace.resolveInclude? uri path = some target ↔
      Include.resolveRelative uri path = .ok target := by
  rw [resolveInclude?, if_pos h]
  cases Include.resolveRelative uri path <;> simp [Except.toOption]

/-- An include that is not relative means another document that it matches. -/
theorem match_of_resolveInclude? (h : Include.isRelative path = false) {target : Uri}
    (hresolve : workspace.resolveInclude? uri path = some target) :
    workspace.contains target = true ∧ target ≠ uri ∧ Include.isMatch target path = true := by
  rw [resolveInclude?, if_neg (by simp [h])] at hresolve
  have hmatch := List.find?_some hresolve
  obtain ⟨hmem, hne⟩ := List.mem_filter.mp (List.mem_of_find?_eq_some hresolve)
  exact ⟨contains_iff_mem.mpr hmem, by simpa using hne, hmatch⟩

/-- An include that is not relative and means nothing matches no other document. -/
theorem resolveInclude?_eq_none (h : Include.isRelative path = false) :
    workspace.resolveInclude? uri path = none ↔
      ∀ other, workspace.contains other = true → other ≠ uri →
        Include.isMatch other path = false := by
  rw [resolveInclude?, if_neg (by simp [h]), Include.findDocument?, List.find?_eq_none]
  constructor
  · intro hnone other hother hne
    have hmem : other ∈ (workspace.documents.map (·.uri)).filter (· ≠ uri) :=
      List.mem_filter.mpr ⟨contains_iff_mem.mp hother, by simpa using hne⟩
    simpa using hnone other hmem
  · intro hnone other hmem
    obtain ⟨hother, hne⟩ := List.mem_filter.mp hmem
    simpa using hnone other (contains_iff_mem.mpr hother) (by simpa using hne)

theorem mem_resolveAll (workspace : Workspace) (uri : Uri) (includes : List IncludeSymbol) :
    (∀ target, target ∈ (workspace.resolveAll uri includes).found ↔
      ∃ path ∈ includes.map (·.path), workspace.resolveInclude? uri path = some target) ∧
    ∀ path, path ∈ (workspace.resolveAll uri includes).unresolved ↔
      path ∈ includes.map (·.path) ∧ workspace.resolveInclude? uri path = none := by
  -- The fold is followed from the last symbol back, so that nothing has to be generalised.
  unfold resolveAll
  induction includes using List.reverseRecOn with
  | nil => simp
  | append_singleton front symbol ih =>
    obtain ⟨hfound, hunresolved⟩ := ih
    rw [List.foldl_append, List.map_append, List.foldl_cons, List.foldl_nil]
    generalize List.foldl _ _ front = resolution at hfound hunresolved
    cases hsymbol : workspace.resolveInclude? uri symbol.path with
    | none =>
      refine ⟨fun target => ?_, fun path => ?_⟩
      · simp only [hfound, List.mem_append, List.map_singleton, List.mem_singleton, or_and_right,
          exists_or, exists_eq_left, hsymbol]
        simp
      · simp only [List.mem_append, hunresolved, List.map_singleton, List.mem_singleton,
          or_and_right]
        exact or_congr_right ⟨fun heq => ⟨heq, heq ▸ hsymbol⟩, And.left⟩
    | some found =>
      have hpath : ∀ path, path ∈ (resolution.unresolved) ↔
          path ∈ front.map (·.path) ++ [symbol.path] ∧
            workspace.resolveInclude? uri path = none := by
        intro path
        rw [hunresolved, List.mem_append, List.mem_singleton, or_and_right]
        refine (or_iff_left ?_).symm
        rintro ⟨rfl, hnone⟩
        rw [hsymbol] at hnone
        cases hnone
      have htarget : ∀ target, (target ∈ resolution.found ∨ target = found) ↔
          ∃ path ∈ front.map (·.path) ++ [symbol.path],
            workspace.resolveInclude? uri path = some target := by
        intro target
        simp only [hfound, List.mem_append, List.mem_singleton, or_and_right, exists_or,
          exists_eq_left, hsymbol, Option.some.injEq]
        rw [eq_comm]
      simp only
      split
      · rename_i hthere
        refine ⟨fun target => ?_, hpath⟩
        rw [List.map_singleton, ← htarget]
        refine (or_iff_left_of_imp ?_).symm
        rintro rfl
        simpa using hthere
      · refine ⟨fun target => ?_, hpath⟩
        rw [List.map_singleton, ← htarget]
        simp

/-! ## One document -/

section Analysis

variable {document : Document}

theorem Tidy.analyzeDocument (h : workspace.Tidy) (uri : Uri) :
    (workspace.analyzeDocument uri).1.Tidy := by
  cases hget : (workspace.cleared uri).get? uri with
  | none =>
    rw [get?_eq_none_iff, contains_cleared] at hget
    rw [analyzeDocument_of_not_contains hget]
    exact h.cleared uri
  | some document =>
    rw [analyzeDocument_eq hget]
    have htidy := (h.cleared uri).awaitAll (workspace.resolution document).unresolved uri
    exact ⟨htidy.paths, htidy.owned, htidy.owners⟩

/-- Who waits after a document has been analysed: those who waited before for something else, and
the document itself for what is not found. -/
theorem waits_analyzeDocument (hmay : workspace.settings.mayResolve uri = true)
    (hget : workspace.get? uri = some document) :
    (workspace.analyzeDocument uri).1.Waits path owner ↔
      workspace.Waits path owner ∧ owner ≠ uri ∧ Include.isMatch uri path = false ∨
        path ∈ document.includePaths ∧ workspace.resolveInclude? uri path = none ∧
          owner = uri := by
  obtain ⟨includes, hcleared⟩ := get?_cleared hget uri
  obtain ⟨-, huri⟩ := get?_eq_some_iff.mp hget
  have hwaits : ∀ (between : Workspace) (functions : FunctionTable) (found : List Uri),
      (between.renew uri functions found).Waits path owner ↔ between.Waits path owner :=
    fun _ _ _ => Iff.rfl
  rw [analyzeDocument_eq hcleared, hwaits, waits_awaitAll, resolution,
    (mem_resolveAll _ _ _).2, waits_cleared hmay, and_assoc]
  simp only [huri, resolveInclude?_congr (cleared_uris workspace uri)]
  rfl

/-- What a document includes after it has been analysed. -/
theorem mem_includes_analyzed (hget : workspace.get? uri = some document) {analyzed : Document}
    (hmem : analyzed ∈ (workspace.analyzeDocument uri).1.documents) (heq : analyzed.uri = uri)
    (target : Uri) :
    target ∈ analyzed.includes ↔
      ∃ path ∈ document.includePaths, workspace.resolveInclude? uri path = some target := by
  obtain ⟨includes, hcleared⟩ := get?_cleared hget uri
  obtain ⟨-, huri⟩ := get?_eq_some_iff.mp hget
  rw [analyzeDocument_eq hcleared, renew_documents, List.mem_map] at hmem
  obtain ⟨old, hold, rfl⟩ := hmem
  have hsame : old.uri = uri := by
    split at heq
    · assumption
    · exact heq
  rw [if_pos hsame, resolution, (mem_resolveAll _ _ _).1]
  simp only [huri, resolveInclude?_congr (cleared_uris workspace uri)]
  rfl

/-- Analysing a document changes others only in that they may include it. -/
theorem mem_cleared_of_ne {other : Document}
    (hmem : other ∈ (workspace.analyzeDocument uri).1.documents) (hne : other.uri ≠ uri) :
    other ∈ (workspace.cleared uri).documents := by
  cases hget : (workspace.cleared uri).get? uri with
  | none =>
    rw [get?_eq_none_iff, contains_cleared] at hget
    rwa [analyzeDocument_of_not_contains hget] at hmem
  | some found =>
    rw [analyzeDocument_eq hget, renew_documents, awaitAll_documents, List.mem_map] at hmem
    obtain ⟨between, hbetween, rfl⟩ := hmem
    split at hne
    · exact absurd ‹_› hne
    · rwa [if_neg ‹_›]

/-- Other documents include a document that has been analysed if they waited for it. -/
theorem mem_includes_other (hmay : workspace.settings.mayResolve uri = true)
    {other : Document} (hmem : other ∈ (workspace.analyzeDocument uri).1.documents)
    (hne : other.uri ≠ uri) :
    ∃ old ∈ workspace.documents, other = { old with includes := other.includes } ∧
      ∀ target, target ∈ other.includes ↔ target ∈ old.includes ∨
        target = uri ∧ ∃ path, workspace.Waits path old.uri ∧ Include.isMatch uri path = true :=
  mem_includes_cleared hmay (mem_cleared_of_ne hmem hne) hne

/-- A document waits for what is not found when it is analysed. -/
theorem waits_of_unresolved (h : path ∈ (workspace.analyzeDocument uri).2) :
    (workspace.analyzeDocument uri).1.Waits path uri ∧ workspace.contains uri = true := by
  cases hget : (workspace.cleared uri).get? uri with
  | none =>
    rw [get?_eq_none_iff, contains_cleared] at hget
    rw [analyzeDocument_of_not_contains hget] at h
    cases h
  | some document =>
    have hcontains : (workspace.cleared uri).contains uri = true := by
      rw [contains, hget, Option.isSome_some]
    rw [contains_cleared] at hcontains
    rw [analyzeDocument_eq hget] at h ⊢
    have hwaits : ((workspace.cleared uri).awaitAll (workspace.resolution document).unresolved
        uri).Waits path uri := waits_awaitAll.mpr (.inr ⟨h, rfl⟩)
    exact ⟨hwaits, hcontains⟩

end Analysis

end Workspace

end Azsl
