import Stencil.Command.Check
import Stencil.Command.Render
import Stencil.Settings.LogLevel

/-!
# Running a command

The outcome of a command line: an exit code and two texts. Notices go with the
errors, unless the command is to be quiet.
-/

set_option autoImplicit false

namespace Stencil

structure Outcome where
  code : Nat
  output : String := ""
  errors : String := ""
deriving DecidableEq, Repr

def programName : String := "mojo"

def programVersion : String := "0.1.0"

def usage : String :=
  "Usage: " ++ programName ++ " [OPTIONS] <COMMAND>\n\n" ++
  "Commands:\n" ++
  "  render <TEMPLATE> [-d <DATA>] [-p <PARTIALS>] [--tags <TAGS>] [--wrap]\n" ++
  "  check [PATHS]... [--select <CODES>] [--ignore <CODES>] [--hidden] [--no-ignore] [-g <GLOB>]\n" ++
  "  help [COMMAND]\n\n" ++
  "Options:\n" ++
  "  -q, --quiet\n" ++
  "  -v, --verbose...\n" ++
  "  -h, --help\n" ++
  "  -V, --version\n"

def Stop.outcome : Stop → Outcome
  | .help => { code := 0, output := usage }
  | .version => { code := 0, output := programName ++ " " ++ programVersion ++ "\n" }
  | .misuse => { code := 2, errors := usage }

def Failure.outcome (f : Failure) : Outcome :=
  { code := 1, errors := "error: " ++ f.message ++ "\n" }

namespace Invocation

def logLevel (i : Invocation) (s : Surroundings) : LogLevel :=
  .ofFlags i.quiet i.verbose (match s.settings with
    | .ok settings => settings.debug
    | .error _ => false)

def log (i : Invocation) (s : Surroundings) (ns : List Notice) : String :=
  if i.logLevel s = .error then "" else String.join (ns.map Notice.line)

def render (i : Invocation) (s : Surroundings) (a : RenderArguments) : Outcome :=
  match a.run s with
  | .ok (text, notices) => { code := 0, output := text, errors := i.log s notices }
  | .error f => f.outcome

def conclude (severities : Severities) (ts : List CheckedTemplate) (log : String) : Outcome :=
  let summary := CheckSummary.ofTemplates severities ts
  { code := if summary.failed then 1 else 0
    output := Check.output severities ts
    errors := log ++ if summary.failed then summary.message ++ "\n" else "" }

def check (i : Invocation) (s : Surroundings) (a : CheckArguments) : Outcome :=
  match s.settings with
  | .error e => (Failure.settings e).outcome
  | .ok settings =>
    let severities := a.severities settings.severities
    if Check.readsInput s.interactive a then
      match s.input with
      | none => Failure.input.outcome
      | some source =>
        conclude severities [.ofSource settings.delimiters Check.inputPath source] ""
    else
      let (ts, notices) := Check.templates s settings a
      conclude severities ts (i.log s notices)

def readsInput (i : Invocation) (interactive : Bool) : Bool :=
  match i.command with
  | .render a => a.readsInput
  | .check a => Check.readsInput interactive a

def paths (i : Invocation) : List String :=
  match i.command with
  | .render a => a.template :: a.data.toList ++ a.partials.toList
  | .check a => if a.paths.isEmpty then ["."] else a.paths

def run (i : Invocation) (s : Surroundings) : Outcome :=
  match i.command with
  | .render a => i.render s a
  | .check a => i.check s a

end Invocation

end Stencil
