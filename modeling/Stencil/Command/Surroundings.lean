import Stencil.Files.FileTree
import Stencil.Settings.Settings

/-!
# Surroundings

What a command finds where it is run.
-/

set_option autoImplicit false

namespace Stencil

structure Surroundings where
  /-- The working directory. -/
  directory : List String
  files : FileTree
  /-- What can be read from the standard input; nothing if that is no text. -/
  input : Option String
  /-- Whether someone types the standard input. -/
  interactive : Bool := false
  userSettings : Option String := none

namespace Surroundings

def inputName : String := "-"

def read (s : Surroundings) (path : String) : Except FileError String :=
  if path = inputName then
    match s.input with
    | some text => .ok text
    | none => .error .notText
  else s.files.read s.directory path

def directoryText (s : Surroundings) : String := Path.text ⟨true, s.directory⟩

def absolute (s : Surroundings) (path : String) : String :=
  if path.toList.head? = some '/' then path else s.directoryText ++ "/" ++ path

def settingsLayers (s : Surroundings) : List (Option String) :=
  (s.userSettings.map some).toList ++ Settings.fileNames.filterMap fun name =>
    match s.files.entry? (s.directory ++ [name]) with
    | some (.file text) => some text
    | _ => none

def settings (s : Surroundings) : Except SettingsError Settings :=
  match s.settingsLayers.mapM id with
  | some texts => Settings.load texts
  | none => .error .unreadable

end Surroundings

end Stencil
