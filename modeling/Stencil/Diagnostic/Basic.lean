import Stencil.Settings.Severity
import Stencil.Template.Problem

/-!
# Diagnostics

A problem as it is reported: in a file, at a level, with a label for the marked
place and notes below. A problem whose severity is off is not reported.
-/

set_option autoImplicit false

namespace Stencil

inductive Level
  | error
  | warning
  | info
  | hint
deriving DecidableEq, Repr

namespace Level

def ofSeverity? : Severity → Option Level
  | .off => none
  | .error => some error
  | .warning => some warning
  | .info => some info
  | .hint => some hint

def word : Level → String
  | error => "error"
  | warning => "warning"
  | info => "info"
  | hint => "help"

theorem ofSeverity?_eq_none {s : Severity} : ofSeverity? s = none ↔ s = .off := by
  cases s <;> simp [ofSeverity?]

theorem ofSeverity?_eq_error {s : Severity} : ofSeverity? s = some error ↔ s = .error := by
  cases s <;> simp [ofSeverity?]

end Level

structure Diagnostic where
  path : String
  source : String
  code : String
  message : String
  level : Level
  span : Span
  label : String
  notes : List String
deriving DecidableEq, Repr

namespace Problem

def label : Problem → String
  | unclosedTag .. => "tag opened here is never closed"
  | unclosedSection .. => "section opened here"
  | unmatchedClose .. => "no open section has this name"
  | invalidDelimiters .. => "expected two delimiters separated by whitespace"
  | emptyTag .. => "this tag has no name"

def notes : Problem → List String
  | unclosedTag .. => ["the rest of the template renders as literal text"]
  | unclosedSection .. => ["the section runs to the end of the template"]
  | invalidDelimiters .. => ["the current delimiters stay in effect"]
  | unmatchedClose .. | emptyTag .. => []

def diagnostic (p : Problem) (path source : String) (level : Level) : Diagnostic :=
  ⟨path, source, p.code, p.message, level, p.span, p.label, p.notes⟩

def report? (p : Problem) (path source : String) (severities : Severities) :
    Option Diagnostic :=
  (Level.ofSeverity? (severities.severityOf p.code)).map (p.diagnostic path source)

end Problem

end Stencil
