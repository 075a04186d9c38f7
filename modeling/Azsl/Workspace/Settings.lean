/-
Azsl.Workspace.Settings — what a user can choose.
-/
import Azsl.FilePath
import Azsl.Uri.Basic

namespace Azsl

/-- Settings of the search for includes. -/
structure Settings where
  /-- Directories searched for includes that match no known document. -/
  includeRoots : List FilePath
  /-- Only documents whose path ends with one of these may end the wait for an include; all may
  if there are none. -/
  retryExtensions : List String
  /-- Forget a document when it is closed. -/
  evictOnClose : Bool
  /-- Number of documents that one analysis may load from disk. -/
  maxDiskIncludes : Nat
deriving DecidableEq, Repr

namespace Settings

/-- The settings of a user who chose nothing. -/
def standard : Settings := ⟨[], [], false, 64⟩

/-- Whether a document may end the wait for an include. -/
def mayResolve (settings : Settings) (uri : Uri) : Bool :=
  settings.retryExtensions.isEmpty ||
    settings.retryExtensions.any fun extension => extension.toList.isSuffixOf uri.path.toList

/-- Add an include root, unless there is one with the same components. -/
def addRoot (settings : Settings) (root : FilePath) : Settings :=
  if settings.includeRoots.any (·.components == root.components) then settings
  else { settings with includeRoots := settings.includeRoots ++ [root] }

end Settings

end Azsl
