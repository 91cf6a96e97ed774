import Stencil.Template.Span

/-!
# Problems

What can be wrong with a template. Parsing never fails: a problem is recorded
and the rest of the template is kept as it could be read.
-/

set_option autoImplicit false

namespace Stencil

inductive Problem
  | unclosedTag (expected : String) (span : Span)
  | unclosedSection (name : String) (span : Span)
  | unmatchedClose (name : String) (span : Span)
  | invalidDelimiters (content : String) (span : Span)
  | emptyTag (span : Span)
deriving DecidableEq, Repr

namespace Problem

def span : Problem → Span
  | unclosedTag _ s | unclosedSection _ s | unmatchedClose _ s | invalidDelimiters _ s
  | emptyTag s => s

def code : Problem → String
  | unclosedTag .. => "T100"
  | unclosedSection .. => "T101"
  | unmatchedClose .. => "T102"
  | invalidDelimiters .. => "T103"
  | emptyTag .. => "T104"

def codes : List String := ["T100", "T101", "T102", "T103", "T104"]

def message : Problem → String
  | unclosedTag expected _ => "Unclosed tag: expected '" ++ expected ++ "'"
  | unclosedSection name _ => "Unclosed section '" ++ name ++ "'"
  | unmatchedClose name _ => "Close tag '" ++ name ++ "' does not match any open section"
  | invalidDelimiters content _ => "Invalid delimiters '" ++ content ++ "'"
  | emptyTag _ => "Empty tag"

end Problem

end Stencil
