import Stencil.Command.Arguments
import Stencil.Command.Notice
import Stencil.Command.Surroundings
import Stencil.Json.Read
import Stencil.Render.Engine

/-!
# Rendering a file

A template is rendered with data from a JSON file and partials from a directory,
each of which has the name of its file without the extension.
-/

set_option autoImplicit false

namespace Stencil

inductive Failure
  | inputTwice
  | settings (e : SettingsError)
  | delimiters (pair : String)
  | template (path : String) (e : FileError)
  | data (path : String) (e : FileError)
  | json (path : String)
  | input
  | render (f : RenderFault)
deriving DecidableEq, Repr

namespace Failure

def unread (path : String) (e : FileError) : String :=
  (if path = Surroundings.inputName then "" else "Could not read " ++ path ++ ": ") ++ e.message

def message : Failure → String
  | inputTwice => "Template and data cannot both be read from stdin"
  | settings e => "Failed to load settings: " ++ e.message
  | delimiters pair => "Invalid --tags " ++ Notice.quoted pair ++ ": expected two delimiters"
  | template path e => "Failed to read template: " ++ unread path e
  | data path e => "Failed to read data: " ++ unread path e
  | json path => "Invalid JSON in " ++ path
  | input => "Failed to read stdin: " ++ FileError.notText.message
  | render .lambdasTooDeep => "Failed to render template"

end Failure

namespace RenderArguments

def readsInput (a : RenderArguments) : Bool :=
  a.template = Surroundings.inputName || a.data = some Surroundings.inputName

def delimiters (a : RenderArguments) (settings : Settings) : Except Failure Delimiters :=
  match a.tags with
  | none => .ok settings.delimiters
  | some pair =>
    match Delimiters.parse? pair.toList with
    | some d => .ok d
    | none => .error (.delimiters pair)

def readData (a : RenderArguments) (s : Surroundings) : Except Failure Value :=
  match a.data with
  | none => .ok .null
  | some path =>
    match s.read path with
    | .error e => .error (.data path e)
    | .ok text =>
      match Json.read? text with
      | some j => .ok (.ofJson j)
      | none => .error (.json path)

/-- The partials in a directory by their names, and the notices on the way to them. Of
two with the same name the one with the later path counts. -/
def readPartials (a : RenderArguments) (s : Surroundings) (settings : Settings) :
    List (String × String) × List Notice :=
  match a.partials with
  | none => ([], [])
  | some directory =>
    let (files, notices) := Walk.files s.files s.directory settings.isTemplate {} [directory]
    let named := files.filterMap fun f => (Path.stem? ⟨true, f⟩).map fun stem => (stem, f)
    (Table.ofList (named.filterMap fun (stem, f) => (s.files.text? f).map fun text => (stem, text)),
      notices.map .walk ++ named.filterMap fun (_, f) =>
        if (s.files.text? f).isNone then
          some (.unreadablePartial (Path.text ⟨true, f⟩) .notText)
        else none)

def run (a : RenderArguments) (s : Surroundings) : Except Failure (String × List Notice) := do
  if a.template = Surroundings.inputName ∧ a.data = some Surroundings.inputName then
    throw .inputTwice
  let settings ← s.settings.mapError .settings
  let d ← a.delimiters settings
  let source ← (s.read a.template).mapError (.template a.template)
  let data ← a.readData s
  let (partials, notices) := a.readPartials s settings
  let engine : Engine := { wrapDepth := settings.wrapDepth }
  let (parsed, engine) := engine.parse d source
  let (data, engine) := if a.wrap then engine.wrap data else (data, engine)
  let (rendered, _) ←
    (engine.renderWith Host.plain (.table (Table.get? · partials)) d source data ()).mapError
      .render
  return (rendered.text,
    notices ++ parsed.template.problems.map (.problem a.template) ++
      rendered.skipped.map (.partialTooDeep · partialLimit))

end RenderArguments

end Stencil
