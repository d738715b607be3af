import ComponentKit.Session.Basic
import ComponentKit.Settings.File

/-!
# Settings on a disk

`save` writes settings to a file, and `load` reads them from it again.
-/

namespace ComponentKit.Settings

open Step

/-- Saves settings to a file, as `toText` writes them, whose directories are made first, and returns its path. -/
def save (settings : Settings) (path : Path) : Step Failure Path := do
  makeDirectories path.parent
  writeText path settings.toText
  return path

/-- The settings in a file, as `ofBytes` reads them. It cannot be read, or else what it holds cannot be used. -/
def load (path : Path) : Step (Failure ⊕ Fault) Settings := do
  let bytes ← (inspect fun disk home => disk.readFile home path).mapFailure .inl
  ofResult ((ofBytes bytes).mapError .inr)

end ComponentKit.Settings
