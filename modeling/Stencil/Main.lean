import Stencil.Command.Run

/-!
# The command line

Finds what a command needs on the disk, runs the command, and writes its outcome.
-/

set_option autoImplicit false

namespace Stencil.CommandLine

def textOf (path : String) : IO (Option String) := do
  try return String.fromUTF8? (← IO.FS.readBinFile path)
  catch _ => return none

partial def readInput (seen : ByteArray) : IO (Option String) := do
  let more ← (← IO.getStdin).read 65536
  if more.isEmpty then return String.fromUTF8? seen
  readInput (seen ++ more)

def entryAt (wanted : Path → Bool) (parts : List String) : IO FileTree := do
  let path := Path.text ⟨true, parts⟩
  let place := (← IO.currentDir) / path
  if !(← place.pathExists) then return []
  if ← place.isDir then return [(parts, .directory)]
  if wanted ⟨true, parts⟩ then return [(parts, .file (← textOf path))]
  return [(parts, .file none)]

partial def below (wanted : Path → Bool) (parts : List String) : IO FileTree := do
  let here ← entryAt wanted parts
  match here with
  | [(_, .directory)] =>
    let place := (← IO.currentDir) / Path.text ⟨true, parts⟩
    let names := (← place.readDir).toList.map (·.fileName)
    return here ++ (← names.mapM fun name => below wanted (parts ++ [name])).flatten
  | _ => return here

def rulesIn (directory : List String) : IO FileTree := do
  let ways := DirectoryRules.makers.map (fun name => [name]) ++ [[".git", "info", "exclude"]]
  return (← ways.mapM fun way => entryAt (fun _ => true) (directory ++ way)).flatten

def waypoints (base : List String) (path : String) : List (List String) :=
  let start := if path.toList.head? == some '/' then [] else base
  let step (ways : List (List String)) (piece : String) : List (List String) :=
    let place := ways.headD start
    if piece == "" || piece == "." then place :: ways
    else if piece == ".." then place.dropLast :: ways
    else (place ++ [piece]) :: ways
  ((Path.pieces path.toList).map String.ofList).foldl step [start]

/-- What a path leads to: the places on the way, all below its end, and the rules of
the directories above. -/
def reachOf (wanted : Path → Bool) (base : List String) (path : String) : IO FileTree := do
  let ways := waypoints base path
  let ends := ways.headD base
  let walked ← ways.mapM (entryAt (fun _ => true))
  let rules ← (Walk.above ends ++ [ends]).mapM rulesIn
  return walked.flatten ++ (← below wanted ends) ++ rules.flatten

def userSettings : IO (Option String) := do
  let name := "/" ++ programName ++ "/" ++ programName ++ ".toml"
  match ← IO.getEnv "XDG_CONFIG_HOME", ← IO.getEnv "HOME" with
  | some home, _ => textOf (home ++ name)
  | none, some home => textOf (home ++ "/.config" ++ name)
  | none, none => return none

def surroundings (i : Invocation) : IO Surroundings := do
  let base := (Path.ofString (← IO.currentDir).toString).parts
  let interactive ← (← IO.getStdin).isTty
  let input ← if i.readsInput interactive then readInput .empty else pure none
  let settingsFiles ← Settings.fileNames.mapM fun n => entryAt (fun _ => true) (base ++ [n])
  let s : Surroundings := {
    directory := base
    files := (base, .directory) :: settingsFiles.flatten
    input
    interactive
    userSettings := ← userSettings }
  let wanted (p : Path) : Bool := match s.settings with
    | .ok settings => settings.isTemplate p
    | .error _ => false
  let reached ← i.paths.mapM (reachOf wanted base)
  return { s with files := s.files ++ reached.flatten }

def finish (o : Outcome) : IO UInt32 := do
  IO.print o.output
  IO.eprint o.errors
  return o.code.toUInt32

end Stencil.CommandLine

open Stencil in
def main (args : List String) : IO UInt32 := do
  match Arguments.read args with
  | .error stop => CommandLine.finish stop.outcome
  | .ok i => CommandLine.finish (i.run (← CommandLine.surroundings i))
