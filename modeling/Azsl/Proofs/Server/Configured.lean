/-
Azsl.Proofs.Server.Configured — the settings of a server after any number of configurations.

A new configuration replaces all settings but one: the include roots in force so far stay behind
those that it names. They hold the folders that the editor works in, but also the roots of every
configuration before (`settings_after`). So a root that only an earlier configuration names is
still searched, although only the folders are meant to be kept (`dropped_root_searched`).
-/
import Azsl.Proofs.Server.Steps

namespace Azsl

/-! ## Include roots -/

namespace Settings

/-- Whether a directory is among the include roots, under whatever spelling. -/
def searches (settings : Settings) (root : FilePath) : Bool :=
  settings.includeRoots.any (·.components == root.components)

theorem addRoot_eq (settings : Settings) (root : FilePath) :
    settings.addRoot root = if settings.searches root then settings
      else { settings with includeRoots := settings.includeRoots ++ [root] } := rfl

theorem addRoots_append (settings : Settings) (roots others : List FilePath) :
    settings.addRoots (roots ++ others) = (settings.addRoots roots).addRoots others :=
  List.foldl_append

theorem addRoots_singleton (settings : Settings) (root : FilePath) :
    settings.addRoots [root] = settings.addRoot root := rfl

theorem searches_addRoot (settings : Settings) (added root : FilePath) :
    (settings.addRoot added).searches root
      = (settings.searches root || added.components == root.components) := by
  rw [addRoot_eq]
  split
  · rename_i hsearches
    by_cases hsame : added.components = root.components
    · have hroot : settings.searches root = settings.searches added := by
        rw [searches, searches, hsame]
      simp [hroot, hsearches]
    · simp [hsame]
  · simp [searches, List.any_append]

theorem searches_addRoots (settings : Settings) (roots : List FilePath) (root : FilePath) :
    (settings.addRoots roots).searches root
      = (settings.searches root || roots.any (·.components == root.components)) := by
  induction roots using List.reverseRecOn with
  | nil => simp [addRoots]
  | append_singleton front added ih =>
    rw [addRoots_append, addRoots_singleton, searches_addRoot, ih, List.any_append,
      Bool.or_assoc]
    simp

/-- Of roots that were added to other settings it does not matter which were there before. -/
theorem addRoots_addRoots (settings other : Settings) (roots : List FilePath) :
    settings.addRoots (other.addRoots roots).includeRoots
      = settings.addRoots (other.includeRoots ++ roots) := by
  induction roots using List.reverseRecOn with
  | nil => simp [addRoots]
  | append_singleton front root ih =>
    rw [addRoots_append, addRoots_singleton, addRoot_eq, ← List.append_assoc, addRoots_append,
      ← ih, addRoots_singleton]
    split
    · rename_i hsearches
      have hthere : (settings.addRoots (other.addRoots front).includeRoots).searches root := by
        rw [searches_addRoots, Bool.or_eq_true]
        exact .inr hsearches
      rw [addRoot_eq, if_pos hthere]
    · rw [addRoots_append, addRoots_singleton]

/-- What is in force after some settings were named, the latest first: the latest, and behind its
include roots those of all the others and some folders. -/
def inForce (folders : List FilePath) : List Settings → Settings
  | [] => standard.addRoots folders
  | latest :: earlier => latest.addRoots (earlier.flatMap (·.includeRoots) ++ folders)

/-- New settings come in front of those that were named before. -/
theorem addRoots_inForce (folders : List FilePath) (latest : Settings) (earlier : List Settings) :
    latest.addRoots (inForce folders earlier).includeRoots
      = inForce folders (latest :: earlier) := by
  cases earlier with
  | nil => exact addRoots_addRoots latest standard folders
  | cons previous earlier =>
    rw [inForce, inForce, addRoots_addRoots, List.flatMap_cons, List.append_assoc]

end Settings

/-- What an editor says at the start is in force like a first configuration. -/
theorem Startup.settings_eq (startup : Startup) :
    startup.settings = Settings.inForce startup.folderPaths
      (startup.options.toList.map Settings.ofConfiguration) := by
  unfold settings
  cases startup.options <;> rfl

/-! ## Messages that configure -/

/-- The settings behind a notice: only a configuration changes them. -/
theorem Workspace.notice_settings (workspace : Workspace) (system : FileSystem)
    (notice : Notice) :
    (workspace.notice system notice).1.settings = match notice with
      | .configured configuration =>
        (Settings.ofConfiguration configuration).addRoots workspace.settings.includeRoots
      | _ => workspace.settings := by
  cases notice with
  | opened uri version chars =>
    simp only [Workspace.notice, openDocument]
    split
    · rfl
    · rw [analyze_settings, load_settings]
  | changed uri version changes =>
    simp only [Workspace.notice, changeDocument]
    cases hrun : applyChanges system uri version changes workspace with
    | ok changed => exact (analyze_settings changed system uri).trans (applyChanges_settings hrun)
    | error error => rfl
  | closed uri =>
    simp only [Workspace.notice, closeDocument]
    split <;> rfl
  | configured configuration => rfl

/-- The configuration that a message brings, if it can be read. -/
def Message.configuration? (message : Message) : Option Json :=
  match message.notice? with
  | some (.configured configuration) => some configuration
  | _ => none

/-- The configurations that some messages bring before the request to shut down. -/
def configurations (messages : List Message) : List Json :=
  (messages.takeWhile (!·.isShutdown)).filterMap Message.configuration?

theorem configurations_cons {message : Message} (h : message.isShutdown = false)
    (rest : List Message) : configurations (message :: rest)
      = message.configuration?.toList ++ configurations rest := by
  rw [configurations, List.takeWhile_cons, h, Bool.not_false, if_pos rfl, List.filterMap_cons]
  cases message.configuration? <;> rfl

/-! ## Whole runs -/

namespace Server

theorem after_inForce {server : Server} {folders : List FilePath} {named : List Settings}
    (hrunning : server.phase = .running)
    (hsettings : server.workspace.settings = Settings.inForce folders named)
    (deliveries : List Delivery) :
    (server.after deliveries).workspace.settings = Settings.inForce folders
      (((configurations (deliveries.map (·.message))).map Settings.ofConfiguration).reverse
        ++ named) := by
  induction deliveries generalizing server named with
  | nil => exact hsettings
  | cons delivery rest ih =>
    obtain ⟨system, message⟩ := delivery
    have hstep := step_receive server system message
    rw [after, List.foldl_cons, ← after, List.map_cons]
    simp only
    generalize server.receive system message = next at hstep ⊢
    cases hstep with
    | stopped hphase _ => exact absurd hrunning hphase
    | shutdown _ =>
      rw [after_over Phase.noConfusion]
      exact hsettings
    | query _ hmethod =>
      rw [configurations_cons (by simpa [Message.isShutdown] using hmethod)]
      exact ih hrunning hsettings
    | ignore _ hid hnone =>
      have hother : message.isShutdown = false := by
        cases message <;> first | rfl | cases hid
      have hquiet : message.configuration? = none := by rw [Message.configuration?, hnone]
      rw [configurations_cons hother, hquiet]
      exact ih hrunning hsettings
    | @notice method params told _ htold =>
      have hnext := server.workspace.notice_settings system told
      have hbrought : (Message.notification method params).notice? = some told := htold
      rw [configurations_cons rfl, Message.configuration?, hbrought]
      cases told with
      | opened | changed | closed => exact ih hrunning (hnext.trans hsettings)
      | configured configuration =>
        rw [hsettings] at hnext
        simp only [Settings.addRoots_inForce] at hnext
        refine Eq.trans (ih hrunning hnext) ?_
        simp

/-- After any messages the settings in force are those of the last configuration, and behind its
include roots all that were named before, the latest first, and the folders of the editor. -/
theorem settings_after (startup : Startup) (deliveries : List Delivery) :
    ((start startup).after deliveries).workspace.settings
      = Settings.inForce startup.folderPaths
          ((startup.options.toList ++ configurations (deliveries.map (·.message))).map
            Settings.ofConfiguration).reverse := by
  have hstart : (startup.options.toList.map Settings.ofConfiguration).reverse
      = startup.options.toList.map Settings.ofConfiguration := by
    cases startup.options <;> rfl
  rw [List.map_append, List.reverse_append, hstart]
  exact after_inForce rfl startup.settings_eq deliveries

/-- The message by which an editor names include roots, and nothing else. -/
def naming (roots : List String) : Message :=
  .notification "workspace/didChangeConfiguration"
    (.obj [("settings", .obj [("includeRoots", .arr (roots.map .str))])])

/-- The message by which an editor opens a document. -/
def opening (uri text : String) : Message :=
  .notification "textDocument/didOpen"
    (.obj [("textDocument", .obj [("uri", .str uri), ("languageId", .str "azsl"),
      ("version", .int 1), ("text", .str text)])])

/-- Only the folders of the editor are meant to be kept when the configuration changes. But a
root that an earlier configuration named stays in force, and is still searched. -/
theorem dropped_root_searched :
    ¬ (∀ (startup : Startup) (deliveries : List Delivery) (last : Json),
      (configurations (deliveries.map (·.message))).getLast? = some last →
      ((start startup).after deliveries).workspace.settings
        = (Settings.ofConfiguration last).addRoots startup.folderPaths) ∧
    ((start .silent).after
      [⟨.empty, naming ["/one"]⟩, ⟨.empty, naming []⟩,
        ⟨FileSystem.empty.write ["one", "b.azsli"] (.text []),
          opening "file:///p/a.azsl" "#include <b.azsli>"⟩]).workspace.contains
      ⟨"file", some .empty, "/one/b.azsli", none, none⟩ = true := by
  refine ⟨fun hall => ?_, by decide +kernel⟩
  have hlast := hall .silent [⟨.empty, naming ["/one"]⟩, ⟨.empty, naming []⟩]
    (.obj [("includeRoots", .arr [])]) rfl
  have hroots := congrArg Settings.includeRoots hlast
  revert hroots
  decide +kernel

end Server

end Azsl
