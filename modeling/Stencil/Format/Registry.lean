import Stencil.Key.Pipeline

/-!
# Formatters

What is registered under names: functions on values, and routines of the host at
work, which may have effects. Running a name that is not registered leaves the value as
it is.
-/

set_option autoImplicit false

namespace Stencil

abbrev Formatter : Type := Value → List Value → Value

inductive Routine
  | function (f : Formatter)
  | handle (id : Nat)

instance : Coe Formatter Routine := ⟨.function⟩

structure Formatters where
  entries : List (String × Routine)

namespace Formatters

def empty : Formatters := ⟨[]⟩

def ofFunctions (es : List (String × Formatter)) : Formatters :=
  ⟨Table.ofList (es.map fun e => (e.1, .function e.2))⟩

def register (fs : Formatters) (name : String) (r : Routine) : Formatters :=
  ⟨Table.put name r fs.entries⟩

def get? (fs : Formatters) (name : String) : Option Routine := Table.get? name fs.entries

def names (fs : Formatters) : List String := Table.keys fs.entries

/-- Without a host its routines leave the value as it is. -/
def apply (fs : Formatters) (name : String) (v : Value) (args : List Value) : Value :=
  match fs.get? name with
  | some (.function f) => f v args
  | some (.handle _) | none => v

def run (fs : Formatters) (steps : List Step) (v : Value) : Value :=
  steps.foldl (fun v s => fs.apply s.name v s.args) v

end Formatters

end Stencil
