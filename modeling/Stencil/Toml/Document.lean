import Stencil.Toml.Basic

/-!
# TOML documents

The tables of a document while it is read. A table may be opened by a header
once; those that stand above it in its header exist without having been opened.
Dotted keys reach into tables that they made, and into those. An inline table is
complete.
-/

set_option autoImplicit false

namespace Stencil.Toml

inductive Origin
  /-- Above another table in a header. -/
  | above
  /-- Made by a dotted key. -/
  | dotted
  /-- Opened by a header. -/
  | opened
deriving DecidableEq, Repr

inductive Entry
  | value (v : Toml)
  | table (origin : Origin) (entries : List (String × Entry))
  /-- An array of tables, the last one first. -/
  | tables (entries : List (String × Entry)) (before : List (List (String × Entry)))

abbrev Entries : Type := List (String × Entry)

namespace Entry

mutual

def finish : Entry → Toml
  | value v => v
  | table _ es => .table (finishAll es)
  | tables es before => .array (finishEach before ++ [.table (finishAll es)])

def finishAll : List (String × Entry) → List (String × Toml)
  | [] => []
  | (k, e) :: es => (k, e.finish) :: finishAll es

def finishEach : List (List (String × Entry)) → List Toml
  | [] => []
  | es :: r => finishEach r ++ [.table (finishAll es)]

end

end Entry

def descend (dotted : Bool) (f : Entries → Option Entries) : List String → Entries → Option Entries
  | [], es => f es
  | k :: ks, es =>
    match Table.get? k es with
    | none => do
      let sub ← descend dotted f ks []
      some (Table.put k (.table (if dotted then .dotted else .above) sub) es)
    | some (.table origin sub) =>
      if dotted && origin == .opened then none
      else do
        let sub ← descend dotted f ks sub
        some (Table.put k (.table origin sub) es)
    | some (.tables sub before) =>
      if dotted then none
      else do
        let sub ← descend dotted f ks sub
        some (Table.put k (.tables sub before) es)
    | some (.value _) => none

def define (k : String) (v : Toml) (es : Entries) : Option Entries :=
  match Table.get? k es with
  | none => some (Table.put k (.value v) es)
  | some _ => none

def openTable (k : String) (es : Entries) : Option Entries :=
  match Table.get? k es with
  | none => some (Table.put k (.table .opened []) es)
  | some (.table .above sub) => some (Table.put k (.table .opened sub) es)
  | some _ => none

def openElement (k : String) (es : Entries) : Option Entries :=
  match Table.get? k es with
  | none => some (Table.put k (.tables [] []) es)
  | some (.tables sub before) => some (Table.put k (.tables [] (sub :: before)) es)
  | some _ => none

def atPath (dotted : Bool) (f : String → Entries → Option Entries) (path : List String)
    (es : Entries) : Option Entries :=
  match path.getLast? with
  | none => none
  | some k => descend dotted (f k) path.dropLast es

end Stencil.Toml
