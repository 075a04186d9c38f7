/-
Azsl.Proofs.Workspace.Refusal — a change that fails leaves everything as it was.

`applyChanges` gives no workspace when it fails, so it does not tell what a failure leaves behind.
Here changes are made in place: every change is done before the next one is looked at, a document
is taken out of the workspace before it is edited, and what has been done by the time of an error
stays done (`changeInPlace`). It makes no difference. Every change leaves the document in the
workspace, so only the first one can find it missing, and then nothing has been done yet
(`changeDocument_refused_iff`). As documents are kept in order, a document that has been taken out
comes back to its place, and the changes in place come to exactly what `changeDocument` gives
(`outcome_changeInPlace_eq`).
-/
import Azsl.Proofs.Workspace.Documents

namespace Azsl

namespace Workspace

/-! ## Changes in place -/

/-- Work on a workspace that may fail, and does not take back what it has done by then. -/
abbrev InPlace := ExceptT DocumentError (StateM Workspace)

/-- How some work on a workspace ends, and the workspace that it leaves. -/
def InPlace.outcome {α : Type} (work : InPlace α) (workspace : Workspace) :
    Except DocumentError α × Workspace :=
  work.run.run workspace

/-- What comes behind an error does not happen, what came before it stays. -/
theorem InPlace.outcome_bind {α β : Type} (work : InPlace α) (next : α → InPlace β)
    (workspace : Workspace) :
    (work >>= next).outcome workspace
      = match work.outcome workspace with
        | (.ok result, after) => (next result).outcome after
        | (.error error, after) => (.error error, after) := by
  simp only [InPlace.outcome, ExceptT.run_bind, StateT.run_bind]
  cases work.run.run workspace with
  | mk result after => cases result <;> rfl

/-- Take a document out of the workspace, if it is there. -/
def takeOut (uri : Uri) : InPlace (Option Document) :=
  modifyGet fun workspace => (workspace.get? uri, workspace.erase uri)

/-- The text on disk that stands for a document that is not known. -/
def textOnDisk (system : FileSystem) (uri : Uri) : Except DocumentError (List Char) :=
  match uri.filePath? with
  | none => .error (.unknownDocument uri)
  | some path => (system.read path).mapError (.unreadable path)

/-- `applyChanges` in place. -/
def applyInPlace (system : FileSystem) (uri : Uri) (version : Int) : List Change → InPlace Unit
  | [] => pure ()
  | .full chars :: rest => do
    modifyThe Workspace (·.load uri (some version) chars)
    applyInPlace system uri version rest
  | .replace range chars :: rest => do
    match ← takeOut uri with
    | some document =>
      modifyThe Workspace (·.put (document.edit version range chars))
      applyInPlace system uri version rest
    | none =>
      let current ← MonadExcept.ofExcept (textOnDisk system uri)
      modifyThe Workspace (·.load uri (some version) current)

/-- `changeDocument` in place. -/
def changeInPlace (system : FileSystem) (uri : Uri) (version : Int) (changes : List Change) :
    InPlace Unit := do
  applyInPlace system uri version changes
  modifyThe Workspace (·.analyze system uri)

variable {workspace : Workspace} {system : FileSystem} {uri : Uri} {version : Int}

/-! ## One change -/

section

variable {document : Document} {range : Range} {chars : List Char} {rest : List Change}

theorem outcome_takeOut {α : Type} (next : Option Document → InPlace α) :
    (takeOut uri >>= next).outcome workspace
      = (next (workspace.get? uri)).outcome (workspace.erase uri) := rfl

theorem outcome_full : (applyInPlace system uri version (.full chars :: rest)).outcome workspace
    = (applyInPlace system uri version rest).outcome (workspace.load uri (some version) chars) :=
  rfl

/-- A document that is there is taken out, edited and put back. -/
theorem outcome_replace (hget : workspace.get? uri = some document) :
    (applyInPlace system uri version (.replace range chars :: rest)).outcome workspace
      = (applyInPlace system uri version rest).outcome
        ((workspace.erase uri).put (document.edit version range chars)) := by
  rw [applyInPlace, outcome_takeOut, hget]
  rfl

/-- Taking out a document that is not there changes nothing. -/
theorem erase_of_get?_eq_none (hget : workspace.get? uri = none) :
    workspace.erase uri = workspace := by
  have hothers : ∀ document ∈ workspace.documents, document.uri ≠ uri := by
    simpa [get?] using hget
  have hkept : workspace.documents.filter (·.uri ≠ uri) = workspace.documents :=
    List.filter_eq_self.mpr fun document hmem => by simpa using hothers document hmem
  exact Workspace.ext rfl hkept rfl rfl

/-- For a document that is not there the text is taken from disk, or else nothing happens. -/
theorem outcome_replace_unknown (hget : workspace.get? uri = none) :
    (applyInPlace system uri version (.replace range chars :: rest)).outcome workspace
      = match textOnDisk system uri with
        | .ok current => (.ok (), workspace.load uri (some version) current)
        | .error error => (.error error, workspace) := by
  rw [applyInPlace, outcome_takeOut, hget, erase_of_get?_eq_none hget]
  cases textOnDisk system uri <;> rfl

theorem applyChanges_replace (hget : workspace.get? uri = some document) :
    applyChanges system uri version (.replace range chars :: rest) workspace
      = applyChanges system uri version rest
        (workspace.put (document.edit version range chars)) := by
  rw [applyChanges, hget]

theorem applyChanges_replace_unknown (hget : workspace.get? uri = none) :
    applyChanges system uri version (.replace range chars :: rest) workspace
      = (textOnDisk system uri).map (workspace.load uri (some version)) := by
  rw [applyChanges, hget, textOnDisk]
  cases uri.filePath? with
  | none => rfl
  | some path => cases hread : system.read path <;> simp only [hread] <;> rfl

end

/-! ## Documents stay known -/

/-- A document that has been put in is found. -/
theorem get?_put_self (workspace : Workspace) (document : Document) :
    (workspace.put document).get? document.uri = some document := by
  rw [get?_put, if_pos rfl]

/-- Changes of a document that is there do not fail: each of them leaves it there for the next. -/
theorem applyInPlace_of_known {document : Document} (hget : workspace.get? uri = some document)
    (changes : List Change) :
    ∃ after, (applyInPlace system uri version changes).outcome workspace = (.ok (), after) := by
  induction changes generalizing workspace document with
  | nil => exact ⟨workspace, rfl⟩
  | cons change rest ih =>
    cases change with
    | full chars =>
      rw [outcome_full]
      exact ih (get?_put_self workspace _)
    | replace range chars =>
      obtain rfl : document.uri = uri := by simpa using List.find?_some hget
      rw [outcome_replace hget]
      exact ih (get?_put_self _ (document.edit version range chars))

theorem outcome_ne_error {document : Document} (hget : workspace.get? uri = some document)
    (changes : List Change) {error : DocumentError} {after : Workspace} :
    (applyInPlace system uri version changes).outcome workspace ≠ (.error error, after) := by
  intro heq
  obtain ⟨last, hlast⟩ : ∃ last,
      (applyInPlace system uri version changes).outcome workspace = (.ok (), last) :=
    applyInPlace_of_known hget changes
  rw [hlast] at heq
  cases heq

/-- Changes succeed or fail, and with the same error, whether they are made in place or not. -/
theorem applyChanges_outcome {other : Workspace} (hsame : other.get? uri = workspace.get? uri)
    (changes : List Change) :
    (applyChanges system uri version changes other).map (fun _ => ())
      = ((applyInPlace system uri version changes).outcome workspace).1 := by
  induction changes generalizing workspace other with
  | nil => rfl
  | cons change rest ih =>
    cases change with
    | full chars =>
      rw [applyChanges, outcome_full]
      refine ih ?_
      rw [load, load, hsame]
      exact (get?_put_self _ _).trans (get?_put_self _ _).symm
    | replace range chars =>
      cases hget : workspace.get? uri with
      | some document =>
        rw [hget] at hsame
        rw [applyChanges_replace hsame, outcome_replace hget]
        obtain rfl : document.uri = uri := by simpa using List.find?_some hget
        refine ih ((get?_put_self other (document.edit version range chars)).trans ?_)
        exact (get?_put_self _ (document.edit version range chars)).symm
      | none =>
        rw [hget] at hsame
        rw [applyChanges_replace_unknown hsame, outcome_replace_unknown hget]
        cases textOnDisk system uri <;> rfl

/-! ## When a change fails -/

/-- There is nothing that the changes of a document could apply to: it is not in the workspace,
the first change is one of a part, and the text is not to be had from disk, for the reason that
`error` gives. -/
def Refuses (workspace : Workspace) (system : FileSystem) (uri : Uri) (changes : List Change)
    (error : DocumentError) : Prop :=
  workspace.get? uri = none ∧
    (∃ range chars rest, changes = .replace range chars :: rest) ∧
    (uri.filePath? = none ∧ error = .unknownDocument uri ∨
      ∃ path reason, uri.filePath? = some path ∧ system.read path = .error reason ∧
        error = .unreadable path reason)

theorem textOnDisk_eq_error_iff {error : DocumentError} :
    textOnDisk system uri = .error error ↔
      uri.filePath? = none ∧ error = .unknownDocument uri ∨
        ∃ path reason, uri.filePath? = some path ∧ system.read path = .error reason ∧
          error = .unreadable path reason := by
  rw [textOnDisk]
  cases uri.filePath? with
  | none => simp [eq_comm]
  | some path => cases hread : system.read path <;> simp [hread, Except.mapError, eq_comm]

/-- Changes in place fail exactly if there is nothing to apply them to, and leave the workspace
as it was then. -/
theorem applyInPlace_error_iff {changes : List Change} {error : DocumentError}
    {after : Workspace} :
    (applyInPlace system uri version changes).outcome workspace = (.error error, after)
      ↔ after = workspace ∧ workspace.Refuses system uri changes error := by
  cases changes with
  | nil =>
    constructor
    · intro heq
      cases heq
    · rintro ⟨-, -, ⟨range, chars, rest, heq⟩, -⟩
      cases heq
  | cons change rest =>
    cases change with
    | full chars =>
      constructor
      · intro heq
        obtain ⟨document, hget⟩ : ∃ document,
            (workspace.load uri (some version) chars).get? uri = some document :=
          ⟨_, get?_put_self workspace _⟩
        rw [outcome_full] at heq
        exact absurd heq (outcome_ne_error hget rest)
      · rintro ⟨-, -, ⟨range, chars, rest, heq⟩, -⟩
        cases heq
    | replace range chars =>
      cases hget : workspace.get? uri with
      | some document =>
        constructor
        · intro heq
          exact absurd heq (outcome_ne_error hget _)
        · rintro ⟨-, hnone, -⟩
          rw [hget] at hnone
          cases hnone
      | none =>
        have hrefuses : workspace.Refuses system uri (.replace range chars :: rest) error
            ↔ textOnDisk system uri = .error error := by
          rw [textOnDisk_eq_error_iff, Refuses, hget]
          simp
        rw [outcome_replace_unknown hget, hrefuses]
        cases textOnDisk system uri with
        | ok current => simp
        | error reason => simp [and_comm, eq_comm]

theorem outcome_changeInPlace (changes : List Change) :
    (changeInPlace system uri version changes).outcome workspace
      = match (applyInPlace system uri version changes).outcome workspace with
        | (.ok (), changed) => (.ok (), changed.analyze system uri)
        | (.error error, after) => (.error error, after) := by
  rw [changeInPlace, InPlace.outcome_bind]
  cases (applyInPlace system uri version changes).outcome workspace with
  | mk result changed => cases result <;> rfl

theorem changeInPlace_error_iff {changes : List Change} {error : DocumentError}
    {after : Workspace} :
    (changeInPlace system uri version changes).outcome workspace = (.error error, after)
      ↔ (applyInPlace system uri version changes).outcome workspace = (.error error, after) := by
  rw [outcome_changeInPlace]
  cases (applyInPlace system uri version changes).outcome workspace with
  | mk result changed => cases result <;> simp

theorem changeDocument_error_iff {changes : List Change} {error : DocumentError} :
    workspace.changeDocument system uri version changes = .error error
      ↔ workspace.Refuses system uri changes error := by
  have hresult : (applyChanges system uri version changes workspace).map (fun _ => ())
      = ((applyInPlace system uri version changes).outcome workspace).1 :=
    applyChanges_outcome rfl changes
  have hrefuses : workspace.Refuses system uri changes error
      ↔ ((applyInPlace system uri version changes).outcome workspace).1 = .error error := by
    constructor
    · intro h
      rw [applyInPlace_error_iff.mpr ⟨rfl, h⟩]
    · intro h
      exact (applyInPlace_error_iff.mp (Prod.ext h rfl)).2
  rw [hrefuses, ← hresult, changeDocument]
  cases applyChanges system uri version changes workspace with
  | ok changed => simp [Except.map]
  | error reason => simp [Except.map]

/-- Changing a document fails exactly if there is nothing to apply the changes to, for the reason
that it gives. Made in place, the changes have then left the workspace as it was. -/
theorem changeDocument_refused_iff (workspace : Workspace) (system : FileSystem) (uri : Uri)
    (version : Int) (changes : List Change) (error : DocumentError) (after : Workspace) :
    (workspace.changeDocument system uri version changes = .error error
        ↔ workspace.Refuses system uri changes error) ∧
      ((changeInPlace system uri version changes).outcome workspace = (.error error, after)
        ↔ after = workspace ∧ workspace.Refuses system uri changes error) :=
  ⟨changeDocument_error_iff, changeInPlace_error_iff.trans applyInPlace_error_iff⟩

/-! ## In place or not -/

/-- No other identifier is written as `uri` is. -/
def Keyed (workspace : Workspace) (uri : Uri) : Prop :=
  ∀ document ∈ workspace.documents, document.uri.render = uri.render → document.uri = uri

theorem Keyed.put (h : Keyed workspace uri) {document : Document} (huri : document.uri = uri) :
    Keyed (workspace.put document) uri := by
  intro found hmem hsame
  rcases mem_put.mp hmem with rfl | ⟨hmem, -⟩
  · exact huri
  · exact h found hmem hsame

/-- Of two identifiers that are written differently one comes first. -/
theorem before_of_not_before {a b : Uri} (h : a.before b = false) (hne : b.render ≠ a.render) :
    b.before a = true := by
  simp only [Uri.before, decide_eq_true_eq, decide_eq_false_iff_not, String.not_lt] at h ⊢
  exact Std.lt_of_le_of_ne h hne

/-- A document takes the place that the one with its identifier had. -/
theorem insertOrdered_filter {documents : List Document} (h : Sorted documents)
    {document : Document}
    (hwritten : ∀ other ∈ documents, other.uri.render = document.uri.render →
      other.uri = document.uri) :
    insertOrdered document (documents.filter (·.uri ≠ document.uri))
      = insertOrdered document documents := by
  induction documents with
  | nil => rfl
  | cons first rest ih =>
    obtain ⟨hfirst, hrest⟩ := List.pairwise_cons.mp h
    have hwrittenRest := fun other hmem => hwritten other (List.mem_cons_of_mem first hmem)
    by_cases hsame : first.uri = document.uri
    · have hkept : rest.filter (·.uri ≠ document.uri) = rest :=
        List.filter_eq_self.mpr fun other hmem => by
          simpa [← hsame] using (hfirst other hmem).1.symm
      rw [List.filter_cons_of_neg (by simpa using hsame), hkept, insertOrdered.eq_2,
        if_pos hsame]
      cases rest with
      | nil => rfl
      | cons second tail =>
        obtain ⟨hne, hlate⟩ := hfirst second List.mem_cons_self
        rw [hsame] at hne hlate
        have hbefore : document.uri.before second.uri = true :=
          before_of_not_before hlate fun heq =>
            hne (hwrittenRest second List.mem_cons_self heq.symm).symm
        rw [insertOrdered, if_neg hne.symm, if_pos hbefore]
    · rw [List.filter_cons_of_pos (by simpa using hsame), insertOrdered, insertOrdered,
        if_neg hsame, if_neg hsame, ih hrest hwrittenRest]
      split
      · rename_i hbefore
        have hkept : rest.filter (·.uri ≠ document.uri) = rest := by
          refine List.filter_eq_self.mpr fun other hmem => ?_
          have hlate := Uri.before_of_before hbefore (hfirst other hmem).2
          have hne : other.uri ≠ document.uri := by
            intro heq
            rw [heq, Uri.before_irrefl] at hlate
            cases hlate
          simpa using hne
        rw [hkept]
      · rfl

theorem put_erase (h : Keyed workspace uri) {document : Document} (huri : document.uri = uri) :
    (workspace.erase uri).put document = workspace.put document := by
  subst huri
  exact Workspace.ext rfl (insertOrdered_filter workspace.sorted h) rfl rfl

theorem applyInPlace_of_ok (h : Keyed workspace uri) {changes : List Change}
    {changed : Workspace} (hok : applyChanges system uri version changes workspace = .ok changed) :
    (applyInPlace system uri version changes).outcome workspace = (.ok (), changed) := by
  induction changes generalizing workspace with
  | nil =>
    cases hok
    rfl
  | cons change rest ih =>
    cases change with
    | full chars =>
      rw [applyChanges] at hok
      rw [outcome_full]
      exact ih (h.put rfl) hok
    | replace range chars =>
      cases hget : workspace.get? uri with
      | some document =>
        obtain rfl : document.uri = uri := by simpa using List.find?_some hget
        have hplace : (workspace.erase document.uri).put (document.edit version range chars)
            = workspace.put (document.edit version range chars) := put_erase h rfl
        rw [applyChanges_replace hget] at hok
        rw [outcome_replace hget, hplace]
        exact ih (h.put rfl) hok
      | none =>
        rw [applyChanges_replace_unknown hget] at hok
        rw [outcome_replace_unknown hget]
        cases htext : textOnDisk system uri with
        | ok current =>
          rw [htext] at hok
          cases hok
          rfl
        | error error =>
          rw [htext] at hok
          cases hok

/-- Changes made in place come to the same as `changeDocument`. -/
theorem outcome_changeInPlace_eq (h : Keyed workspace uri) (changes : List Change) :
    (changeInPlace system uri version changes).outcome workspace
      = match workspace.changeDocument system uri version changes with
        | .ok changed => (.ok (), changed)
        | .error error => (.error error, workspace) := by
  cases hchange : workspace.changeDocument system uri version changes with
  | ok analyzed =>
    rw [changeDocument] at hchange
    cases happly : applyChanges system uri version changes workspace with
    | ok changed =>
      rw [happly] at hchange
      cases hchange
      rw [outcome_changeInPlace, applyInPlace_of_ok h happly]
    | error error =>
      rw [happly] at hchange
      cases hchange
  | error error =>
    have hrefuses := changeDocument_error_iff.mp hchange
    exact changeInPlace_error_iff.mpr (applyInPlace_error_iff.mpr ⟨rfl, hrefuses⟩)

end Workspace

end Azsl
