/-
Azsl.Proofs.Workspace.Replacement — what becomes of a full replacement among other changes.

Changes of a document that is there are all applied, and a full replacement puts the document
there. So the text is the last replacement with the changes behind it, unless the document is not
there and the changes begin with one of a part (`changeDocument_replacement`): then the text is
the one on disk, and all changes are left out, full replacements among them
(`replacement_left_out`). Analysing documents afterwards changes no text.
-/
import Azsl.Proofs.Server.Agreement
import Azsl.Proofs.Workspace.Refusal
import Azsl.Proofs.Workspace.Waiting

namespace Azsl

namespace Workspace

variable {workspace : Workspace} {uri : Uri}

/-! ## Changes in order -/

section

variable {system : FileSystem} {version : Int} {changes : List Change} {document : Document}
  {chars : List Char}

/-- What comes before a full replacement does not matter if the document is there. -/
theorem applyChanges_append_of_get? (hget : workspace.get? uri = some document)
    (before after : List Change) :
    ∃ middle, applyChanges system uri version (before ++ after) workspace
      = applyChanges system uri version after middle := by
  induction before generalizing workspace document with
  | nil => exact ⟨workspace, rfl⟩
  | cons change rest ih =>
    cases change with
    | full replacement => exact ih (get?_put_self workspace _)
    | replace range replacement =>
      obtain rfl : document.uri = uri := by simpa using List.find?_some hget
      rw [List.cons_append, applyChanges_replace hget]
      exact ih (get?_put_self workspace (document.edit version range replacement))

/-- The document is not there, and its changes begin with one of a part. The text is then taken
from disk. -/
def Rereads (workspace : Workspace) (uri : Uri) (changes : List Change) : Prop :=
  workspace.get? uri = none ∧ ∃ range chars rest, changes = .replace range chars :: rest

/-- Unless the text is taken from disk, the changes are applied one by one up to a full
replacement. -/
theorem applyChanges_append_full (before after : List Change) (chars : List Char)
    (hbefore : ¬ workspace.Rereads uri before) :
    ∃ middle : Workspace, applyChanges system uri version (before ++ .full chars :: after) workspace
      = applyChanges system uri version after (middle.load uri (some version) chars) := by
  cases hget : workspace.get? uri with
  | some document =>
    exact applyChanges_append_of_get? hget before (.full chars :: after)
  | none =>
    cases before with
    | nil => exact ⟨workspace, rfl⟩
    | cons change rest =>
      cases change with
      | full first =>
        exact applyChanges_append_of_get? (get?_load workspace uri (some version) first) rest
          (.full chars :: after)
      | replace range first => exact absurd ⟨hget, range, first, rest, rfl⟩ hbefore

/-- The text of a document when its changes have been applied, a full replacement among them. -/
theorem applyChanges_full_ok {before after : List Change} {applied : Workspace}
    (hok : applyChanges system uri version (before ++ .full chars :: after) workspace
      = .ok applied) :
    ∃ document, applied.get? uri = some document ∧ document.version = some version ∧
      (¬ workspace.Rereads uri before →
        document.text = .ofChars (after.foldl Change.applyTo chars)) ∧
      (workspace.Rereads uri before → ∃ current, textOnDisk system uri = .ok current ∧
        document.text = .ofChars current) := by
  by_cases hrereads : workspace.Rereads uri before
  · obtain ⟨hnone, range, first, rest, rfl⟩ := hrereads
    rw [List.cons_append, applyChanges_replace_unknown hnone] at hok
    cases hdisk : textOnDisk system uri with
    | error error =>
      rw [hdisk] at hok
      cases hok
    | ok current =>
      rw [hdisk] at hok
      obtain rfl := Except.ok.inj hok
      exact ⟨_, get?_load workspace uri (some version) current, rfl,
        fun hnot => absurd ⟨hnone, range, first, rest, rfl⟩ hnot, fun _ => ⟨current, rfl, rfl⟩⟩
  · obtain ⟨middle, heq⟩ := applyChanges_append_full before after chars hrereads
    rw [heq] at hok
    obtain ⟨last, document, hlast, hget, htext, hversion, -⟩ := applyChanges_of_known system version
      (get?_load middle uri (some version) chars) rfl after
    obtain rfl := Except.ok.inj (hok.symm.trans hlast)
    exact ⟨document, hget, hversion rfl, fun _ => htext, fun hyes => absurd hyes hrereads⟩

end

/-! ## Full replacements -/

/-- After changes that succeed, a full replacement among them, the document has the given version
and the text of the replacement with the changes behind it applied in order, whatever came
before. But if the document was not there and the changes begin with one of a part, it has the
text on disk. -/
theorem changeDocument_replacement (workspace : Workspace) (system : FileSystem) (uri : Uri)
    (version : Int) (before : List Change) (chars : List Char) (after : List Change)
    {changed : Workspace}
    (hok : workspace.changeDocument system uri version (before ++ .full chars :: after)
      = .ok changed) :
    ∃ document, changed.get? uri = some document ∧ document.version = some version ∧
      (¬ workspace.Rereads uri before →
        document.text = .ofChars (after.foldl Change.applyTo chars)) ∧
      (workspace.Rereads uri before → ∃ current, textOnDisk system uri = .ok current ∧
        document.text = .ofChars current) := by
  rw [changeDocument] at hok
  cases happly : applyChanges system uri version (before ++ .full chars :: after) workspace with
  | error error =>
    rw [happly] at hok
    cases hok
  | ok applied =>
    rw [happly] at hok
    obtain rfl := Except.ok.inj hok
    obtain ⟨document, hget, hversion, hreplaced, hreread⟩ := applyChanges_full_ok happly
    obtain ⟨functions, includes, hanalyzed⟩ := get?_analyze applied system uri hget
    exact ⟨_, hanalyzed, hversion, hreplaced, hreread⟩

/-- Whatever was replaced before, the last replacement and the changes behind it count. -/
theorem changeDocument_replacement_twice :
    ∃ changed, (empty .standard).changeDocument .empty (rootFile "a.azsl") 1
        ([.full ['a']] ++ .full ['b'] :: [.replace ⟨⟨0, 0⟩, ⟨0, 0⟩⟩ ['c']]) = .ok changed ∧
      ∃ document, changed.get? (rootFile "a.azsl") = some document ∧
        document.version = some 1 ∧ document.text = .ofChars ['c', 'b'] := by
  obtain ⟨changed, hok⟩ : ∃ changed, (empty .standard).changeDocument .empty (rootFile "a.azsl") 1
      ([.full ['a']] ++ .full ['b'] :: [.replace ⟨⟨0, 0⟩, ⟨0, 0⟩⟩ ['c']]) = .ok changed := ⟨_, rfl⟩
  have hnot : ¬ (empty .standard).Rereads (rootFile "a.azsl") [.full ['a']] := by
    rintro ⟨-, range, chars, rest, heq⟩
    cases heq
  obtain ⟨document, hget, hversion, hreplaced, -⟩ := changeDocument_replacement _ _ _ _ _ _ _ hok
  exact ⟨changed, hok, document, hget, hversion, (hreplaced hnot).trans (by decide +kernel)⟩

/-- The text of a document that is not there is taken from disk when a part of it changes, and a
full replacement behind that change is left out. -/
theorem replacement_left_out :
    ¬ ∀ (workspace changed : Workspace) (system : FileSystem) (uri : Uri) (version : Int)
        (before : List Change) (chars : List Char) (after : List Change),
      (workspace.changeDocument system uri version (before ++ .full chars :: after)
        = .ok changed) →
      ∃ document, changed.get? uri = some document ∧
        document.text = .ofChars (after.foldl Change.applyTo chars) := by
  intro hall
  have hkept : (((empty .standard).changeDocument
      (FileSystem.empty.write ["a.azsl"] (.text ['a'])) (rootFile "a.azsl") 1
      ([.replace ⟨⟨0, 0⟩, ⟨0, 0⟩⟩ ['x']] ++ .full ['b'] :: [])).toOption.bind
      (·.get? (rootFile "a.azsl"))).map (·.text.chars) = some ['a'] := by decide +kernel
  cases hok : (empty .standard).changeDocument
      (FileSystem.empty.write ["a.azsl"] (.text ['a'])) (rootFile "a.azsl") 1
      ([.replace ⟨⟨0, 0⟩, ⟨0, 0⟩⟩ ['x']] ++ .full ['b'] :: []) with
  | error error =>
    rw [hok] at hkept
    cases hkept
  | ok changed =>
    obtain ⟨document, hget, htext⟩ := hall _ changed _ _ _ _ _ _ hok
    rw [hok] at hkept
    change (changed.get? (rootFile "a.azsl")).map (·.text.chars) = some ['a'] at hkept
    rw [hget, Option.map_some, htext] at hkept
    cases hkept

end Workspace

end Azsl
