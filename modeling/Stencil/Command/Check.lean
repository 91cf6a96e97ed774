import Stencil.Command.Arguments
import Stencil.Command.Notice
import Stencil.Command.Surroundings
import Stencil.Diagnostic.Layout
import Stencil.Template.Parse

/-!
# Checking templates

A check reports the problems of templates whose severity is not off, and fails if
one of them is an error. The closing line counts the errors and the templates
that have some.
-/

set_option autoImplicit false

namespace Stencil

structure CheckedTemplate where
  path : String
  source : String
  problems : List Problem
deriving DecidableEq, Repr

namespace CheckedTemplate

def ofSource (d : Delimiters) (path source : String) : CheckedTemplate :=
  ⟨path, source, (Template.parse d source).problems⟩

def reports (severities : Severities) (t : CheckedTemplate) : List Diagnostic :=
  t.problems.filterMap fun p => p.report? t.path t.source severities

def errors (severities : Severities) (t : CheckedTemplate) : Nat :=
  ((t.reports severities).filter (·.level = .error)).length

end CheckedTemplate

/-- The severities of the settings with those that a command line sets: errors for the
selected codes, then off for the ignored ones. -/
def CheckArguments.severities (a : CheckArguments) (settings : Severities) : Severities :=
  let selected := a.select.foldl (fun t code => t.set code .error) settings
  a.ignore.foldl (fun t code => t.set code .off) selected

structure CheckSummary where
  errors : Nat
  templates : Nat
deriving DecidableEq, Repr

namespace CheckSummary

def ofTemplates (severities : Severities) (ts : List CheckedTemplate) : CheckSummary :=
  let counts := ts.map (·.errors severities)
  ⟨counts.sum, (counts.filter (0 < ·)).length⟩

def failed (s : CheckSummary) : Bool := 0 < s.errors

def counted (n : Nat) (thing : String) : String :=
  toString n ++ " " ++ thing ++ if n = 1 then "" else "s"

def message (s : CheckSummary) : String :=
  "Found " ++ counted s.errors "error" ++ " in " ++ counted s.templates "file" ++ "."

end CheckSummary

namespace Check

def output (severities : Severities) (ts : List CheckedTemplate) : String :=
  String.join ((ts.flatMap (·.reports severities)).map fun d => d.text ++ "\n\n")

def inputPath : String := "<stdin>"

def templates (s : Surroundings) (settings : Settings) (a : CheckArguments) :
    List CheckedTemplate × List Notice :=
  let paths := if a.paths.isEmpty then [s.directoryText] else a.paths.map s.absolute
  let options : WalkOptions := ⟨a.hidden, a.noIgnore, a.globs⟩
  let (files, notices) := Walk.files s.files s.directory settings.isTemplate options paths
  let sources := files.map fun f => (Path.text ⟨true, f⟩, s.files.text? f)
  (sources.filterMap fun (path, text) =>
      text.map (CheckedTemplate.ofSource settings.delimiters path),
    notices.map .walk ++ sources.filterMap fun (path, text) =>
      if text.isNone then some (.unreadableTemplate path .notText) else none)

def readsInput (interactive : Bool) (a : CheckArguments) : Bool :=
  a.paths.isEmpty && !interactive

end Check

end Stencil
