import Stencil.Table

/-!
# Severities

How problems are reported, by their code. A key of the table is a code or the
beginning of codes, in any case of its letters; the longest key that fits counts.
Without one a problem is an error.
-/

set_option autoImplicit false

namespace Stencil

inductive Severity
  | off
  | error
  | warning
  | info
  | hint
deriving DecidableEq, Repr

namespace Severity

def all : List Severity := [off, error, warning, info, hint]

def name : Severity → String
  | off => "off"
  | error => "error"
  | warning => "warning"
  | info => "info"
  | hint => "hint"

def ofName? (s : String) : Option Severity := all.find? (·.name == s)

def fails (s : Severity) : Bool := s == error

end Severity

abbrev Severities : Type := List (String × Severity)

namespace Severities

def upperAscii (s : String) : List Char := s.toList.map Char.toUpper

def fits (code key : String) : Bool := (upperAscii key).isPrefixOf (upperAscii code)

def longer : Option (String × Severity) → String × Severity → Option (String × Severity)
  | none, e => some e
  | some b, e => if b.1.length < e.1.length then some e else some b

def best? (t : Severities) (code : String) : Option (String × Severity) :=
  (t.filter fun e => fits code e.1).foldl longer none

def severityOf (t : Severities) (code : String) : Severity :=
  match Table.get? code t with
  | some s => s
  | none => ((best? t code).map Prod.snd).getD .error

def enabled (t : Severities) (code : String) : Bool := t.severityOf code != .off

def set (t : Severities) (key : String) (s : Severity) : Severities := Table.put key s t

end Severities

end Stencil
