/-
Azsl.Proofs.Server.Agreement — an editor and the server agree on the texts of open documents.

A session is what an editor tells the server, notice by notice, with any number of documents open
at a time. As long as a document is never opened again with a version that is not newer than the
one the server still keeps, the server has the text of every open document (`session_agrees`).
Such an opening is ignored by design, so without the condition the two may differ
(`reopened_text_differs`).
-/
import Azsl.Proofs.Text.Lines
import Azsl.Proofs.Workspace.Run
import Azsl.Server.Basic

namespace Azsl

/-! ## The editor's side -/

/-- The text of a document behind a change. -/
def Change.applyTo (chars : List Char) : Change → List Char
  | .full replacement => replacement
  | .replace range replacement => ((SourceText.ofChars chars).applyChange range replacement).1.chars

/-- A document as an editor has it open. -/
structure Buffer where
  version : Int
  chars : List Char

/-- The documents that an editor has open. -/
def Editor : Type := Uri → Option Buffer

namespace Editor

/-- An editor that has nothing open. -/
def idle : Editor := fun _ => none

/-- Open a document, or close it. -/
def set (editor : Editor) (uri : Uri) (buffer : Option Buffer) : Editor :=
  fun other => if other = uri then buffer else editor other

theorem set_self (editor : Editor) (uri : Uri) (buffer : Option Buffer) :
    editor.set uri buffer uri = buffer :=
  if_pos rfl

/-- What an editor has open when it has given a notice. -/
def tell (editor : Editor) : Notice → Editor
  | .opened uri version chars => editor.set uri (some ⟨version, chars⟩)
  | .changed uri version changes =>
    editor.set uri ((editor uri).map fun buffer =>
      ⟨version, changes.foldl Change.applyTo buffer.chars⟩)
  | .closed uri => editor.set uri none
  | .configured _ => editor

/-- Whether the protocol lets an editor give a notice: only documents that are not open are
opened, only open ones are changed and closed, and versions increase while a document is open. -/
def Conforms (editor : Editor) : Notice → Prop
  | .opened uri _ _ => editor uri = none
  | .changed uri version _ => ∃ buffer, editor uri = some buffer ∧ buffer.version < version
  | .closed uri => ∃ buffer, editor uri = some buffer
  | .configured _ => True

end Editor

/-- Documents are opened with versions newer than those that the server keeps. -/
def Workspace.Renews (workspace : Workspace) : Notice → Prop
  | .opened uri version _ => ∀ kept ∈ (workspace.get? uri).bind (·.version), kept < version
  | _ => True

/-- An editor and the server after some notices, each of which the protocol lets the editor give
and meets a condition. The server may find another file system each time. -/
inductive Told (condition : Workspace → Notice → Prop) : Editor → Workspace → Prop
  | start (settings) : Told condition .idle (.empty settings)
  | tell {editor workspace} (system : FileSystem) {notice} : Told condition editor workspace →
      editor.Conforms notice → condition workspace notice →
      Told condition (editor.tell notice) (workspace.notice system notice).1

/-! ## Texts of documents -/

namespace Workspace

/-- Analysing a document changes no text. -/
theorem get?_analyze (workspace : Workspace) (system : FileSystem) (uri : Uri) {other : Uri}
    {document : Document} (hget : workspace.get? other = some document) :
    ∃ functions includes, (workspace.analyze system uri).get? other
      = some { document with functions := functions, includes := includes } := by
  have hpreserved : Preserved fun later _ => ∃ functions includes, later.get? other
      = some { document with functions := functions, includes := includes } := by
    refine ⟨?_, ?_, fun _ h => h⟩
    · rintro later queue found chars ⟨functions, includes, hlater⟩ hnew
      refine ⟨functions, includes, ?_⟩
      rw [get?_load_other _ _ none chars, hlater]
      rintro rfl
      rw [contains, hlater] at hnew
      cases hnew
    · rintro later next rest ⟨functions, includes, hlater⟩ -
      obtain ⟨functions', includes', hnext⟩ := get?_analyzeDocument hlater next
      exact ⟨functions', includes', hnext⟩
  cases hcontains : workspace.contains uri with
  | false =>
    rw [analyze_of_not_contains system hcontains]
    obtain ⟨includes, hcleared⟩ := get?_cleared hget uri
    exact ⟨document.functions, includes, hcleared⟩
  | true =>
    exact hpreserved.analyzed system ⟨document.functions, document.includes, hget⟩ hcontains

/-- Changes of a known document succeed, give it the version and the text that the editor has,
and leave all others. -/
theorem applyChanges_of_known {workspace : Workspace} (system : FileSystem) {uri : Uri}
    (version : Int) {document : Document} {chars : List Char}
    (hget : workspace.get? uri = some document) (htext : document.text = .ofChars chars)
    (changes : List Change) :
    ∃ changed document', applyChanges system uri version changes workspace = .ok changed ∧
      changed.get? uri = some document' ∧
      document'.text = .ofChars (changes.foldl Change.applyTo chars) ∧
      (document.version = some version → document'.version = some version) ∧
      ∀ other, other ≠ uri → changed.get? other = workspace.get? other := by
  induction changes generalizing workspace document chars with
  | nil => exact ⟨workspace, document, rfl, hget, htext, id, fun _ _ => rfl⟩
  | cons change rest ih =>
    cases change with
    | full replacement =>
      obtain ⟨changed, document', hchanged, hget', htext', hversion, hothers⟩ :=
        ih (get?_load workspace uri (some version) replacement) rfl
      refine ⟨changed, document', hchanged, hget', htext', fun _ => hversion rfl,
        fun other hne => ?_⟩
      rw [hothers other hne, get?_load_other _ hne]
    | replace range replacement =>
      have huri : (document.edit version range replacement).uri = uri :=
        (get?_eq_some_iff.mp hget).2
      have hput := get?_put workspace (document.edit version range replacement)
      have hedited : (workspace.put (document.edit version range replacement)).get? uri
          = some (document.edit version range replacement) := by
        rw [hput, if_pos huri.symm]
      have htext' : (document.edit version range replacement).text
          = .ofChars (Change.applyTo chars (.replace range replacement)) := by
        simp only [Document.edit, htext]
        rfl
      obtain ⟨changed, document', hchanged, hget', htext'', hversion, hothers⟩ :=
        ih hedited htext'
      refine ⟨changed, document', ?_, hget', htext'', fun _ => hversion rfl, fun other hne => ?_⟩
      · rw [applyChanges, hget]
        exact hchanged
      · rw [hothers other hne, hput, if_neg]
        exact fun heq => hne (heq.trans huri)

end Workspace

/-! ## Agreement -/

/-- The server has the text of every document that an editor has open. -/
structure Agrees (editor : Editor) (workspace : Workspace) : Prop where
  texts : ∀ uri buffer, editor uri = some buffer →
    ∃ document, workspace.get? uri = some document ∧ document.text = .ofChars buffer.chars

namespace Agrees

variable {editor : Editor} {workspace : Workspace}

/-- Analysing a document that has the text of the editor. -/
theorem analyze {loaded : Workspace} {uri : Uri} {buffer : Buffer} {document : Document}
    (h : Agrees editor workspace)
    (hothers : ∀ other, other ≠ uri → loaded.get? other = workspace.get? other)
    (hget : loaded.get? uri = some document) (htext : document.text = .ofChars buffer.chars)
    (system : FileSystem) :
    Agrees (editor.set uri (some buffer)) (loaded.analyze system uri) := by
  refine ⟨fun other buffer' hbuffer => ?_⟩
  rw [Editor.set] at hbuffer
  split at hbuffer
  · rename_i heq
    subst heq
    obtain rfl := Option.some.inj hbuffer
    obtain ⟨functions, includes, hanalyzed⟩ := loaded.get?_analyze system other hget
    exact ⟨_, hanalyzed, htext⟩
  · rename_i hne
    obtain ⟨old, hold, hold'⟩ := h.texts other buffer' hbuffer
    rw [← hothers other hne] at hold
    obtain ⟨functions, includes, hanalyzed⟩ := loaded.get?_analyze system uri hold
    exact ⟨_, hanalyzed, hold'⟩

theorem opened (h : Agrees editor workspace) (system : FileSystem) {uri : Uri} {version : Int}
    (chars : List Char) (hrenews : workspace.Renews (.opened uri version chars)) :
    Agrees (editor.set uri (some ⟨version, chars⟩))
      (workspace.openDocument system uri version chars).1 := by
  have haccepted : ¬ ((workspace.get? uri).bind (·.version)).any (version ≤ ·) = true := by
    rw [Option.any_eq_true]
    rintro ⟨kept, hkept, hle⟩
    have hlt := hrenews kept hkept
    simp only [decide_eq_true_eq] at hle
    omega
  rw [Workspace.openDocument, if_neg haccepted]
  exact h.analyze (fun other hne => Workspace.get?_load_other _ hne _ _)
    (Workspace.get?_load _ _ _ _) rfl system

theorem changed (h : Agrees editor workspace) (system : FileSystem) {uri : Uri} {buffer : Buffer}
    (hbuffer : editor uri = some buffer) (version : Int) (changes : List Change) :
    ∃ changed, workspace.changeDocument system uri version changes = .ok changed ∧
      Agrees (editor.set uri (some ⟨version, changes.foldl Change.applyTo buffer.chars⟩))
        changed := by
  obtain ⟨document, hget, htext⟩ := h.texts uri buffer hbuffer
  obtain ⟨edited, document', hedited, hget', htext', -, hothers⟩ :=
    Workspace.applyChanges_of_known system version hget htext changes
  refine ⟨edited.analyze system uri, ?_, h.analyze hothers hget' htext' system⟩
  rw [Workspace.changeDocument, hedited]

theorem closed (h : Agrees editor workspace) (uri : Uri) :
    Agrees (editor.set uri none) (workspace.closeDocument uri) := by
  have htexts : ∀ other buffer, editor.set uri none other = some buffer →
      other ≠ uri ∧ editor other = some buffer := by
    intro other buffer hbuffer
    rw [Editor.set] at hbuffer
    split at hbuffer
    · cases hbuffer
    · exact ⟨‹_›, hbuffer⟩
  rw [Workspace.closeDocument]
  split
  · refine ⟨fun other buffer hbuffer => ?_⟩
    obtain ⟨hne, hbuffer⟩ := htexts other buffer hbuffer
    obtain ⟨document, hget, htext⟩ := h.texts other buffer hbuffer
    rw [← Workspace.get?_erase workspace hne] at hget
    exact ⟨document, hget, htext⟩
  · exact ⟨fun other buffer hbuffer => h.texts other buffer (htexts other buffer hbuffer).2⟩

/-- The editor and the server still agree after one more notice. -/
theorem notice (h : Agrees editor workspace) (system : FileSystem) {notice : Notice}
    (hconforms : editor.Conforms notice) (hrenews : workspace.Renews notice) :
    Agrees (editor.tell notice) (workspace.notice system notice).1 := by
  cases notice with
  | opened uri version chars => exact h.opened system chars hrenews
  | changed uri version changes =>
    obtain ⟨buffer, hbuffer, -⟩ := hconforms
    obtain ⟨changed, hchanged, hagrees⟩ := h.changed system hbuffer version changes
    simp only [Workspace.notice, hchanged, Editor.tell, hbuffer]
    exact hagrees
  | closed uri => exact h.closed uri
  | configured configuration => exact ⟨h.texts⟩

end Agrees

theorem Told.agrees {editor : Editor} {workspace : Workspace}
    (h : Told Workspace.Renews editor workspace) : Agrees editor workspace := by
  induction h with
  | start settings => exact ⟨fun uri buffer hbuffer => by cases hbuffer⟩
  | tell system _ hconforms hrenews ih => exact ih.notice system hconforms hrenews

/-- After every notice of a session in which documents are opened with newer versions than the
server keeps, the server has the text of every open document. -/
theorem session_agrees {editor : Editor} {workspace : Workspace}
    (hsession : Told Workspace.Renews editor workspace) {uri : Uri} {buffer : Buffer}
    (hopen : editor uri = some buffer) :
    ∃ document, workspace.get? uri = some document ∧ document.text.chars = buffer.chars := by
  obtain ⟨document, hget, htext⟩ := hsession.agrees.texts uri buffer hopen
  exact ⟨document, hget, by rw [htext]; rfl⟩

/-! ## Opening a document again -/

/-- The identifier of a document that is opened twice. -/
def reopenedUri : Uri := ⟨"file", some .empty, "/a.azsl", none, none⟩

/-- The server after a document has been opened and closed. -/
def afterClosing (version : Int) : Workspace :=
  (((Workspace.empty .standard).notice .empty (.opened reopenedUri version ['a'])).1.notice .empty
    (.closed reopenedUri)).1

/-- The editor after a document has been opened and closed. -/
def afterClosingEditor (version : Int) : Editor :=
  (Editor.idle.tell (.opened reopenedUri version ['a'])).tell (.closed reopenedUri)

theorem told_afterClosing {condition : Workspace → Notice → Prop} {version : Int}
    (hopened : condition (.empty .standard) (.opened reopenedUri version ['a']))
    (hclosed : condition ((Workspace.empty .standard).notice .empty
      (.opened reopenedUri version ['a'])).1 (.closed reopenedUri)) :
    Told condition (afterClosingEditor version) (afterClosing version) :=
  .tell _ (.tell _ (.start _) rfl hopened) ⟨⟨version, ['a']⟩, Editor.set_self ..⟩ hclosed

theorem conforms_afterClosing (version again : Int) (chars : List Char) :
    (afterClosingEditor version).Conforms (.opened reopenedUri again chars) := by
  unfold Editor.Conforms afterClosingEditor
  exact Editor.set_self ..

/-- A document that is opened again with a newer version has its new text. -/
theorem session_agrees_reopened :
    ∃ editor workspace document, Told Workspace.Renews editor workspace ∧
      editor reopenedUri = some ⟨2, ['b']⟩ ∧ workspace.get? reopenedUri = some document ∧
        document.text.chars = ['b'] := by
  have hkept : ((afterClosing 1).get? reopenedUri).bind (·.version) = some 1 := by decide +kernel
  have hrenews : (afterClosing 1).Renews (.opened reopenedUri 2 ['b']) := by
    intro kept hmem
    rw [hkept, Option.mem_some_iff] at hmem
    omega
  have hclosed : Told Workspace.Renews (afterClosingEditor 1) (afterClosing 1) :=
    told_afterClosing (fun kept hmem => by cases hmem) trivial
  have hsession := hclosed.tell .empty (conforms_afterClosing 1 2 ['b']) hrenews
  have hopen : (afterClosingEditor 1).tell (.opened reopenedUri 2 ['b']) reopenedUri
      = some ⟨2, ['b']⟩ := Editor.set_self ..
  obtain ⟨document, hget, htext⟩ := session_agrees hsession hopen
  exact ⟨_, _, document, hsession, hopen, hget, htext⟩

/-- The protocol does not relate the versions of a document before and after it was closed. If
it is opened again with an older version, the server keeps its old text. -/
theorem reopened_text_differs :
    ¬ ∀ (editor : Editor) (workspace : Workspace), Told (fun _ _ => True) editor workspace →
      ∀ uri buffer, editor uri = some buffer →
        ∃ document, workspace.get? uri = some document ∧ document.text.chars = buffer.chars := by
  intro hall
  have hclosed : Told (fun _ _ => True) (afterClosingEditor 2) (afterClosing 2) :=
    told_afterClosing trivial trivial
  have hsession := hclosed.tell .empty (conforms_afterClosing 2 1 ['b']) trivial
  obtain ⟨document, hget, htext⟩ :=
    hall _ _ hsession reopenedUri ⟨1, ['b']⟩ (Editor.set_self ..)
  have hkept : (((afterClosing 2).notice .empty (.opened reopenedUri 1 ['b'])).1.get?
      reopenedUri).map (·.text.chars) = some ['a'] := by decide +kernel
  rw [hget, Option.map_some, htext] at hkept
  cases hkept

end Azsl
