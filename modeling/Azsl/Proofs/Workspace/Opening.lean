/-
Azsl.Proofs.Workspace.Opening — the order in which documents are opened does not matter.

What a workspace knows after some documents have been opened is said without regard to their
order: a document includes what its includes mean among all of them, and waits for those that
mean none. An include is looked up when its document is opened, or delivered when its target is;
as long as there is only one target, both come to the same (`openAll_perm`).
-/
import Azsl.Proofs.Workspace.Waiting

namespace Azsl

/-- A document as an editor opens it. -/
structure Opening where
  uri : Uri
  version : Int
  chars : List Char

namespace Opening

/-- What is known about a document on its own. -/
def document (opening : Opening) : Document where
  uri := opening.uri
  version := some opening.version
  text := .ofChars opening.chars
  tree := parse opening.chars none
  functions := .ofList (Symbols.collect (.ofChars opening.chars) (parse opening.chars none)).functions
  includes := []

/-- The paths of the includes of a document. -/
def includePaths (opening : Opening) : List String :=
  opening.document.includePaths

/-- One of the includes of a document means another one of some documents. -/
def Means (opening : Opening) (openings : List Opening) (target : Uri) : Prop :=
  ∃ path ∈ opening.includePaths,
    (Include.isRelative path = true ∧ Include.resolveRelative opening.uri path = .ok target) ∨
    (Include.isRelative path = false ∧ ∃ other ∈ openings, other.uri = target ∧
      target ≠ opening.uri ∧ Include.isMatch target path = true)

/-- An include of a document means none of some documents. -/
def Lacks (opening : Opening) (openings : List Opening) (path : String) : Prop :=
  path ∈ opening.includePaths ∧ Include.isRelative path = false ∧
    ∀ other ∈ openings, other.uri ≠ opening.uri → Include.isMatch other.uri path = false

/-- An include of a document means one other of some documents at most. -/
def Single (opening : Opening) (openings : List Opening) (path : String) : Prop :=
  ∀ first ∈ openings, ∀ second ∈ openings, first.uri ≠ opening.uri → second.uri ≠ opening.uri →
    Include.isMatch first.uri path = true → Include.isMatch second.uri path = true →
    first.uri = second.uri

instance (opening : Opening) (openings : List Opening) (path : String) :
    Decidable (opening.Single openings path) :=
  inferInstanceAs (Decidable (∀ first ∈ openings, ∀ second ∈ openings,
    first.uri ≠ opening.uri → second.uri ≠ opening.uri →
    Include.isMatch first.uri path = true → Include.isMatch second.uri path = true →
    first.uri = second.uri))

end Opening

/-- Documents with different identifiers, whose includes mean one other document at most and
whose relative includes can be resolved. -/
structure Unambiguous (openings : List Opening) : Prop where
  distinct : (openings.map (·.uri)).Nodup
  single : ∀ opening ∈ openings, ∀ path ∈ opening.includePaths, Include.isRelative path = false →
    opening.Single openings path
  joins : ∀ opening ∈ openings, ∀ path ∈ opening.includePaths, Include.isRelative path = true →
    (Include.resolveRelative opening.uri path).isOk = true

instance (openings : List Opening) : Decidable (Unambiguous openings) :=
  decidable_of_iff
    ((openings.map (·.uri)).Nodup ∧
      (∀ opening ∈ openings, ∀ path ∈ opening.includePaths, Include.isRelative path = false →
        opening.Single openings path) ∧
      ∀ opening ∈ openings, ∀ path ∈ opening.includePaths, Include.isRelative path = true →
        (Include.resolveRelative opening.uri path).isOk = true)
    ⟨fun ⟨hdistinct, hsingle, hjoins⟩ => ⟨hdistinct, hsingle, hjoins⟩,
      fun h => ⟨h.distinct, h.single, h.joins⟩⟩

theorem Unambiguous.fresh {openings : List Opening} {opening : Opening}
    (h : Unambiguous (openings ++ [opening])) :
    (openings.map (·.uri)).Nodup ∧ ∀ old ∈ openings, opening.uri ≠ old.uri := by
  have hdistinct := h.distinct
  rw [List.map_append, List.nodup_append] at hdistinct
  refine ⟨hdistinct.1, fun old hold => ?_⟩
  exact (hdistinct.2.2 old.uri (List.mem_map_of_mem hold) opening.uri (by simp)).symm

/-- Fewer documents are less ambiguous. -/
theorem Unambiguous.subset {openings others : List Opening} (h : Unambiguous openings)
    (hdistinct : (others.map (·.uri)).Nodup) (hsubset : others ⊆ openings) :
    Unambiguous others where
  distinct := hdistinct
  single opening hopening path hpath hrelative first hfirst second hsecond :=
    h.single opening (hsubset hopening) path hpath hrelative first (hsubset hfirst) second
      (hsubset hsecond)
  joins opening hopening := h.joins opening (hsubset hopening)

namespace Workspace

/-- Open documents in order. -/
def openAll (settings : Settings) (system : FileSystem) (openings : List Opening) : Workspace :=
  (empty settings).run <|
    openings.map fun opening => .opened system opening.uri opening.version opening.chars

/-! ## One document -/

/-- Without include roots nothing is looked for on disk. -/
theorem analyze_of_no_roots {workspace : Workspace} (system : FileSystem) (uri : Uri)
    (h : workspace.settings.includeRoots = []) :
    workspace.analyze system uri = (workspace.analyzeDocument uri).1 := by
  rw [analyze, analyzeQueue_cons system _ rfl List.not_mem_nil]
  simp only [h, List.isEmpty_nil, if_true]
  exact analyzeQueue_nil _ _ rfl

theorem openDocument_of_new {workspace : Workspace} (system : FileSystem) {opening : Opening}
    (hroots : workspace.settings.includeRoots = [])
    (hnew : workspace.contains opening.uri = false) :
    (workspace.openDocument system opening.uri opening.version opening.chars).1
      = ((workspace.load opening.uri (some opening.version) opening.chars).analyzeDocument
          opening.uri).1 := by
  have hnone := get?_eq_none_iff.mpr hnew
  rw [openDocument, hnone, if_neg (by simp)]
  exact analyze_of_no_roots system opening.uri hroots

/-! ## What is known after some documents have been opened -/

/-- What a workspace knows after some documents have been opened, whatever their order. -/
structure Opened (openings : List Opening) (workspace : Workspace) : Prop where
  roots : workspace.settings.includeRoots = []
  unrestricted : workspace.settings.retryExtensions = []
  tidy : workspace.Tidy
  stored : ∀ uri, workspace.contains uri = true ↔ ∃ opening ∈ openings, opening.uri = uri
  documents : ∀ document ∈ workspace.documents, ∃ opening ∈ openings,
    document = { opening.document with includes := document.includes } ∧
      ∀ target, target ∈ document.includes ↔ opening.Means openings target
  waits : ∀ path owner, workspace.Waits path owner ↔
    ∃ opening ∈ openings, opening.uri = owner ∧ opening.Lacks openings path

theorem opened_empty {settings : Settings} (hroots : settings.includeRoots = [])
    (hretry : settings.retryExtensions = []) : Opened [] (empty settings) := by
  refine ⟨hroots, hretry, tidy_empty settings, ?_, ?_, ?_⟩
  · intro uri
    simp [contains, get?, empty]
  · intro document hmem
    cases hmem
  · intro path owner
    simp [Waits, empty]

namespace Opened

variable {openings : List Opening} {workspace : Workspace} {opening : Opening}

/-- Looking up an include among all documents so far. -/
theorem resolveInclude?_iff (h : Unambiguous (openings ++ [opening]))
    (hstored : ∀ uri, workspace.contains uri = true ↔
      ∃ other ∈ openings ++ [opening], other.uri = uri) {path : String}
    (hpath : path ∈ opening.includePaths) :
    (∀ target, workspace.resolveInclude? opening.uri path = some target ↔
      (Include.isRelative path = true ∧ Include.resolveRelative opening.uri path = .ok target) ∨
      (Include.isRelative path = false ∧ ∃ other ∈ openings ++ [opening], other.uri = target ∧
        target ≠ opening.uri ∧ Include.isMatch target path = true)) ∧
    (workspace.resolveInclude? opening.uri path = none ↔
      opening.Lacks (openings ++ [opening]) path) := by
  have hopening : opening ∈ openings ++ [opening] := by simp
  cases hrelative : Include.isRelative path with
  | true =>
    refine ⟨fun target => by simp [resolveInclude?_of_relative hrelative], ?_⟩
    have hjoins := h.joins opening hopening path hpath hrelative
    cases hjoin : Include.resolveRelative opening.uri path with
    | error error =>
      rw [hjoin] at hjoins
      cases hjoins
    | ok target =>
      have hresolve : workspace.resolveInclude? opening.uri path = some target :=
        (resolveInclude?_of_relative hrelative).mpr hjoin
      simp [hresolve, Opening.Lacks, hrelative]
  | false =>
    have hnone : workspace.resolveInclude? opening.uri path = none ↔
        ∀ other ∈ openings ++ [opening], other.uri ≠ opening.uri →
          Include.isMatch other.uri path = false := by
      rw [resolveInclude?_eq_none hrelative]
      constructor
      · intro hall other hother
        exact hall other.uri ((hstored other.uri).mpr ⟨other, hother, rfl⟩)
      · intro hall uri huri
        obtain ⟨other, hother, rfl⟩ := (hstored uri).mp huri
        exact hall other hother
    refine ⟨fun target => ?_, hnone.trans ?_⟩
    · simp only [Bool.false_eq_true, false_and, false_or, true_and]
      constructor
      · intro hresolve
        obtain ⟨hcontains, hne, hmatch⟩ := match_of_resolveInclude? hrelative hresolve
        obtain ⟨other, hother, rfl⟩ := (hstored target).mp hcontains
        exact ⟨other, hother, rfl, hne, hmatch⟩
      · rintro ⟨other, hother, rfl, hne, hmatch⟩
        cases hresolve : workspace.resolveInclude? opening.uri path with
        | none =>
          rw [hnone.mp hresolve other hother hne] at hmatch
          cases hmatch
        | some found =>
          -- Whatever is found matches too, and there is only one.
          obtain ⟨hcontains, hne', hmatch'⟩ := match_of_resolveInclude? hrelative hresolve
          obtain ⟨other', hother', rfl⟩ := (hstored found).mp hcontains
          rw [h.single opening hopening path hpath hrelative other' hother' other hother hne' hne
            hmatch' hmatch]
    · simp [Opening.Lacks, hpath, hrelative]

/-- A document opened before includes the new one if it waited for it. -/
theorem means_append (hall : Unambiguous (openings ++ [opening])) {old : Opening}
    (hold : old ∈ openings) (target : Uri) :
    old.Means (openings ++ [opening]) target ↔
      old.Means openings target ∨ target = opening.uri ∧
        ∃ path, old.Lacks openings path ∧ Include.isMatch opening.uri path = true := by
  have hne := hall.fresh.2 old hold
  constructor
  · rintro ⟨path, hpath, hrelative | ⟨hrelative, other, hother, rfl, hother', hmatch⟩⟩
    · exact .inl ⟨path, hpath, .inl hrelative⟩
    · rcases List.mem_append.mp hother with hother | hother
      · exact .inl ⟨path, hpath, .inr ⟨hrelative, other, hother, rfl, hother', hmatch⟩⟩
      · obtain rfl := List.mem_singleton.mp hother
        refine .inr ⟨rfl, path, ⟨hpath, hrelative, fun second hsecond hsecond' => ?_⟩, hmatch⟩
        -- A second target would make the include ambiguous.
        by_contra hmatch'
        have hsame := hall.single old (List.mem_append_left _ hold) path hpath hrelative other
          (by simp) second (List.mem_append_left _ hsecond) hother' hsecond' hmatch
          (by simpa using hmatch')
        exact hall.fresh.2 second hsecond hsame
  · rintro (⟨path, hpath, hrelative | ⟨hrelative, other, hother, hrest⟩⟩ |
      ⟨rfl, path, ⟨hpath, hrelative, -⟩, hmatch⟩)
    · exact ⟨path, hpath, .inl hrelative⟩
    · exact ⟨path, hpath, .inr ⟨hrelative, other, List.mem_append_left _ hother, hrest⟩⟩
    · exact ⟨path, hpath, .inr ⟨hrelative, opening, by simp, rfl, hne, hmatch⟩⟩

theorem lacks_append {old : Opening} (hne : opening.uri ≠ old.uri) (path : String) :
    old.Lacks (openings ++ [opening]) path ↔
      old.Lacks openings path ∧ Include.isMatch opening.uri path = false := by
  simp only [Opening.Lacks, List.mem_append, List.mem_singleton, or_imp, forall_and,
    forall_eq, hne, ne_eq, not_false_eq_true, forall_const, and_assoc]

/-- The workspace of some documents and one more, before that one is analysed. -/
structure Joined (openings : List Opening) (opening : Opening) (workspace : Workspace) :
    Prop where
  roots : workspace.settings.includeRoots = []
  unrestricted : workspace.settings.retryExtensions = []
  tidy : workspace.Tidy
  stored : ∀ uri, workspace.contains uri = true ↔
    ∃ other ∈ openings ++ [opening], other.uri = uri
  current : ∃ functions includes, workspace.get? opening.uri = some
    { opening.document with functions := functions, includes := includes }
  others : ∀ document ∈ workspace.documents, document.uri ≠ opening.uri →
    ∃ old ∈ openings, document = { old.document with includes := document.includes } ∧
      ∀ target, target ∈ document.includes ↔ old.Means openings target
  waits : ∀ path owner, workspace.Waits path owner ↔
    ∃ old ∈ openings, old.uri = owner ∧ old.Lacks openings path

theorem joined_load (h : Opened openings workspace) (opening : Opening) :
    Joined openings opening
      (workspace.load opening.uri (some opening.version) opening.chars) where
  roots := h.roots
  unrestricted := h.unrestricted
  tidy := ⟨h.tidy.paths, h.tidy.owned, h.tidy.owners⟩
  stored uri := by
    rw [contains_load, h.stored]
    simp only [List.mem_append, List.mem_singleton, or_and_right, exists_or, exists_eq_left]
    rw [or_comm, eq_comm]
  current := ⟨_, _, get?_load _ _ _ _⟩
  others document hmem hne := by
    refine (mem_load.mp hmem).elim (fun heq => ?_) fun hold => h.documents _ hold.1
    rw [heq] at hne
    exact absurd rfl hne
  waits := h.waits

namespace Joined

variable {document : Document}

theorem mayResolve (h : Joined openings opening workspace) :
    workspace.settings.mayResolve opening.uri = true := by
  simp [Settings.mayResolve, h.unrestricted]

/-- The new document is analysed among all documents. -/
theorem mem_analyzed (h : Joined openings opening workspace)
    (hall : Unambiguous (openings ++ [opening]))
    (hmem : document ∈ (workspace.analyzeDocument opening.uri).1.documents)
    (heq : document.uri = opening.uri) :
    document = { opening.document with includes := document.includes } ∧
      ∀ target, target ∈ document.includes ↔ opening.Means (openings ++ [opening]) target := by
  obtain ⟨functions, includes, hget⟩ := h.current
  refine ⟨?_, fun target => ?_⟩
  · obtain ⟨old, hold, functions', includes', rfl, hfunctions⟩ :=
      mem_analyzeDocument hmem
    obtain rfl := workspace.sorted.eq_of_uri_eq hold (get?_eq_some_iff.mp hget).1 heq
    rw [if_pos heq] at hfunctions
    rw [hfunctions]
    rfl
  · rw [mem_includes_analyzed hget hmem heq, Opening.Means]
    refine exists_congr fun path => and_congr_right fun hpath => ?_
    exact (resolveInclude?_iff hall h.stored hpath).1 target

/-- A document that was there gains the new one where it waited for it. -/
theorem mem_other (h : Joined openings opening workspace)
    (hall : Unambiguous (openings ++ [opening]))
    (hmem : document ∈ (workspace.analyzeDocument opening.uri).1.documents)
    (hne : document.uri ≠ opening.uri) :
    ∃ old ∈ openings, document = { old.document with includes := document.includes } ∧
      ∀ target, target ∈ document.includes ↔ old.Means (openings ++ [opening]) target := by
  obtain ⟨before, hbefore, hdocument, hincludes⟩ := mem_includes_other h.mayResolve hmem hne
  rw [hdocument] at hne
  obtain ⟨old, hold, hbefore', hmeans⟩ := h.others before hbefore hne
  have huri : before.uri = old.uri := by rw [hbefore']; rfl
  refine ⟨old, hold, by rw [hdocument, hbefore'], fun target => ?_⟩
  rw [hincludes, hmeans, means_append hall hold]
  simp only [h.waits, huri]
  refine or_congr_right (and_congr_right fun _ => exists_congr fun path => and_congr_left' ?_)
  constructor
  · rintro ⟨other, hother, heq, hlacks⟩
    rwa [← List.inj_on_of_nodup_map hall.fresh.1 hother hold heq]
  · exact fun hlacks => ⟨old, hold, rfl, hlacks⟩

/-- Those that waited for the new document wait no more, and the new one waits for what none of
the documents is. -/
theorem waits_analyzed (h : Joined openings opening workspace)
    (hall : Unambiguous (openings ++ [opening])) (path : String) (owner : Uri) :
    (workspace.analyzeDocument opening.uri).1.Waits path owner ↔
      ∃ old ∈ openings ++ [opening], old.uri = owner ∧ old.Lacks (openings ++ [opening]) path := by
  obtain ⟨functions, includes, hget⟩ := h.current
  have hfresh := hall.fresh.2
  rw [waits_analyzeDocument h.mayResolve hget, h.waits]
  constructor
  · rintro (⟨⟨old, hold, rfl, hlacks⟩, -, hmatch⟩ | ⟨hpath, hnone, rfl⟩)
    · have hlacks' := (lacks_append (hfresh old hold) path).mpr ⟨hlacks, hmatch⟩
      exact ⟨old, List.mem_append_left _ hold, rfl, hlacks'⟩
    · have hlacks := (resolveInclude?_iff hall h.stored hpath).2.mp hnone
      exact ⟨opening, by simp, rfl, hlacks⟩
  · rintro ⟨old, hold, rfl, hlacks⟩
    rcases List.mem_append.mp hold with hold | hold
    · obtain ⟨hlacks, hmatch⟩ := (lacks_append (hfresh old hold) path).mp hlacks
      exact .inl ⟨⟨old, hold, rfl, hlacks⟩, (hfresh old hold).symm, hmatch⟩
    · obtain rfl := List.mem_singleton.mp hold
      have hpath := hlacks.1
      exact .inr ⟨hpath, (resolveInclude?_iff hall h.stored hpath).2.mpr hlacks, rfl⟩

theorem analyzed (h : Joined openings opening workspace)
    (hall : Unambiguous (openings ++ [opening])) :
    Opened (openings ++ [opening]) (workspace.analyzeDocument opening.uri).1 where
  roots := by rw [analyzeDocument_settings, h.roots]
  unrestricted := by rw [analyzeDocument_settings, h.unrestricted]
  tidy := h.tidy.analyzeDocument _
  stored uri := by rw [contains_analyzeDocument, h.stored]
  documents document hmem := by
    by_cases heq : document.uri = opening.uri
    · exact ⟨opening, by simp, h.mem_analyzed hall hmem heq⟩
    · obtain ⟨old, hold, hknown⟩ := h.mem_other hall hmem heq
      exact ⟨old, List.mem_append_left _ hold, hknown⟩
  waits := h.waits_analyzed hall

end Joined

/-- Opening one more document. -/
theorem openDocument (h : Opened openings workspace) (hall : Unambiguous (openings ++ [opening]))
    (system : FileSystem) :
    Opened (openings ++ [opening])
      (workspace.openDocument system opening.uri opening.version opening.chars).1 := by
  have hnew : workspace.contains opening.uri = false := by
    rw [Bool.eq_false_iff]
    intro hcontains
    obtain ⟨old, hold, heq⟩ := (h.stored opening.uri).mp hcontains
    exact hall.fresh.2 old hold heq.symm
  rw [openDocument_of_new system h.roots hnew]
  exact (joined_load h opening).analyzed hall

/-- Opening any documents from nothing. -/
theorem openAll {settings : Settings} (hroots : settings.includeRoots = [])
    (hretry : settings.retryExtensions = []) {openings : List Opening}
    (h : Unambiguous openings) (system : FileSystem) :
    Opened openings (Workspace.openAll settings system openings) := by
  induction openings using List.reverseRecOn with
  | nil => exact opened_empty hroots hretry
  | append_singleton front opening ih =>
    have hfront := h.subset h.fresh.1 (List.subset_append_left front [opening])
    have hstep := (ih hfront).openDocument h system
    rw [Workspace.openAll, List.map_append, run, List.foldl_append]
    exact hstep

end Opened

/-! ## The order does not matter -/

/-- Two workspaces have the same documents, which include the same documents and wait for the
same includes, if perhaps in another order. -/
structure SameContent (workspace other : Workspace) : Prop where
  documents : ∀ uri, (workspace.get? uri).map ({ · with includes := [] })
    = (other.get? uri).map ({ · with includes := [] })
  includes : ∀ uri document document', workspace.get? uri = some document →
    other.get? uri = some document' →
    ∀ target, target ∈ document.includes ↔ target ∈ document'.includes
  paths : ∀ path, path ∈ workspace.pending.map (·.path) ↔ path ∈ other.pending.map (·.path)
  owners : ∀ entry ∈ workspace.pending, ∀ entry' ∈ other.pending, entry.path = entry'.path →
    ∀ owner, owner ∈ entry.owners ↔ owner ∈ entry'.owners

namespace Opened

variable {openings others : List Opening} {workspace other : Workspace}

theorem means_congr (hsame : ∀ opening, opening ∈ openings ↔ opening ∈ others) (opening : Opening)
    (target : Uri) : opening.Means openings target ↔ opening.Means others target := by
  simp only [Opening.Means, hsame]

theorem lacks_congr (hsame : ∀ opening, opening ∈ openings ↔ opening ∈ others) (opening : Opening)
    (path : String) : opening.Lacks openings path ↔ opening.Lacks others path := by
  simp only [Opening.Lacks, hsame]

theorem get?_eq_none (h : Opened openings workspace) {uri : Uri}
    (hnone : ∀ opening ∈ openings, opening.uri ≠ uri) : workspace.get? uri = none := by
  rw [get?_eq_none_iff, Bool.eq_false_iff]
  intro hcontains
  obtain ⟨opening, hopening, heq⟩ := (h.stored uri).mp hcontains
  exact hnone opening hopening heq

theorem get?_eq_some (h : Opened openings workspace) (hdistinct : (openings.map (·.uri)).Nodup)
    {opening : Opening} (hopening : opening ∈ openings) :
    ∃ includes, workspace.get? opening.uri = some { opening.document with includes := includes } ∧
      ∀ target, target ∈ includes ↔ opening.Means openings target := by
  obtain ⟨document, hmem, huri⟩ := contains_iff.mp ((h.stored opening.uri).mpr ⟨opening, hopening, rfl⟩)
  obtain ⟨found, hfound, hdocument, hmeans⟩ := h.documents document hmem
  have hsame : found = opening := by
    rw [hdocument] at huri
    exact List.inj_on_of_nodup_map hdistinct hfound hopening huri
  subst hsame
  exact ⟨document.includes, get?_eq_some_iff.mpr ⟨hdocument ▸ hmem, rfl⟩, hmeans⟩

/-- What is known after documents have been opened depends on which they are. -/
theorem sameContent (h : Opened openings workspace) (h' : Opened others other)
    (hdistinct : (openings.map (·.uri)).Nodup) (hdistinct' : (others.map (·.uri)).Nodup)
    (hsame : ∀ opening, opening ∈ openings ↔ opening ∈ others) :
    workspace.SameContent other := by
  have hwaits : ∀ path owner, workspace.Waits path owner ↔ other.Waits path owner := by
    intro path owner
    simp only [h.waits, h'.waits, hsame, lacks_congr hsame]
  have hfound : ∀ uri, (∃ opening ∈ openings, opening.uri = uri) ∨
      workspace.get? uri = none ∧ other.get? uri = none := by
    intro uri
    by_cases hany : ∃ opening ∈ openings, opening.uri = uri
    · exact .inl hany
    · refine .inr ⟨h.get?_eq_none fun opening hmem heq => hany ⟨opening, hmem, heq⟩,
        h'.get?_eq_none fun opening hmem heq => hany ⟨opening, (hsame opening).mpr hmem, heq⟩⟩
  constructor
  · intro uri
    rcases hfound uri with ⟨opening, hopening, rfl⟩ | ⟨hnone, hnone'⟩
    · obtain ⟨includes, hget, -⟩ := h.get?_eq_some hdistinct hopening
      obtain ⟨includes', hget', -⟩ := h'.get?_eq_some hdistinct' ((hsame opening).mp hopening)
      rw [hget, hget']
      rfl
    · rw [hnone, hnone']
  · intro uri document document' hdocument hdocument' target
    rcases hfound uri with ⟨opening, hopening, rfl⟩ | ⟨hnone, -⟩
    · obtain ⟨includes, hget, hmeans⟩ := h.get?_eq_some hdistinct hopening
      obtain ⟨includes', hget', hmeans'⟩ :=
        h'.get?_eq_some hdistinct' ((hsame opening).mp hopening)
      obtain rfl := Option.some.inj (hget.symm.trans hdocument)
      obtain rfl := Option.some.inj (hget'.symm.trans hdocument')
      rw [hmeans, hmeans', means_congr hsame]
    · rw [hnone] at hdocument
      cases hdocument
  · intro path
    rw [h.tidy.mem_paths, h'.tidy.mem_paths]
    exact exists_congr (hwaits path)
  · intro entry hentry entry' hentry' hpath owner
    rw [h.tidy.mem_owners hentry, h'.tidy.mem_owners hentry', hwaits, hpath]

end Opened

/-- Documents whose includes are unambiguous may be opened in any order. -/
theorem openAll_perm {settings : Settings} (hroots : settings.includeRoots = [])
    (hretry : settings.retryExtensions = []) {openings others : List Opening}
    (hunambiguous : Unambiguous openings) (hperm : openings.Perm others)
    (system system' : FileSystem) :
    (openAll settings system openings).SameContent (openAll settings system' others) := by
  have hdistinct : (others.map (·.uri)).Nodup :=
    (hperm.map (·.uri)).nodup_iff.mp hunambiguous.distinct
  have hothers := hunambiguous.subset hdistinct hperm.symm.subset
  exact (Opened.openAll hroots hretry hunambiguous system).sameContent
    (Opened.openAll hroots hretry hothers system') hunambiguous.distinct hdistinct
    fun _ => hperm.mem_iff

/-- Two documents that include each other, one of them relatively, and a third with an include
that no document matches. -/
def circularOpenings : List Opening :=
  [⟨⟨"file", some .empty, "/a.azsl", none, none⟩, 1, "#include \"b.azsli\"\n".toList⟩,
    ⟨⟨"file", some .empty, "/b.azsli", none, none⟩, 1, "#include \"./a.azsl\"\n".toList⟩,
    ⟨⟨"file", some .empty, "/c.azsl", none, none⟩, 1, "#include <d.azsli>\nvoid f();\n".toList⟩]

theorem sameContent_circularOpenings :
    Unambiguous circularOpenings ∧
      (openAll .standard .empty circularOpenings).SameContent
        (openAll .standard .empty circularOpenings.reverse) := by
  have hunambiguous : Unambiguous circularOpenings := by decide +kernel
  exact ⟨hunambiguous, openAll_perm rfl rfl hunambiguous circularOpenings.reverse_perm.symm _ _⟩

end Workspace

end Azsl
