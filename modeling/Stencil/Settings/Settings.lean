import Stencil.Path
import Stencil.Settings.Severity
import Stencil.Template.Delimiters
import Stencil.Text.Case
import Stencil.Text.Quoted
import Stencil.Toml.Read

/-!
# Settings

Settings come in layers of TOML, each of which adds to those before: tables are
merged key by key and everything else is replaced. Values are converted where
that is possible, and the delimiters that result have to be usable.
-/

set_option autoImplicit false

namespace Stencil

structure Settings where
  debug : Bool := false
  delimiters : Delimiters := .standard
  wrapDepth : Nat := 3
  extensions : List String := ["mustache", "html", "tpl"]
  severities : Severities := []
deriving DecidableEq

inductive SettingsError
  | unreadable
  | invalidDelimiters (d : Delimiters)
deriving DecidableEq, Repr

def SettingsError.message : SettingsError → String
  | unreadable => "Configuration build/deserialize error"
  | invalidDelimiters d =>
    "Invalid tags " ++ String.ofList (Text.inspectQuoted d.opening.toList) ++ " " ++
      String.ofList (Text.inspectQuoted d.closing.toList) ++
      ": delimiters must be non-empty and contain no whitespace"

namespace Settings

def fileNames : List String := [".mojo.toml", "mojo.toml"]

/-! ## Merging -/

def fieldsOf : Option Toml → List (String × Toml)
  | some (.table fs) => fs
  | _ => []

mutual

/-- Lays `v` over `under`. Under a table, what is no table gives way to an empty one. -/
def overlay (under : Option Toml) : Toml → Toml
  | .table fs => .table (overlayFields (fieldsOf under) fs)
  | v => v

def overlayFields (us : List (String × Toml)) : List (String × Toml) → List (String × Toml)
  | [] => us
  | (k, v) :: fs => overlayFields (Table.put k (overlay (Table.get? k us) v) us) fs

end

def isKeyChar (c : Char) : Bool := c.isAlphanum || c == '_' || c == '-'

/-- The parts of a top-level key, which may be a path of words with dots between
them; any other key is a part of its own. -/
def keyPath (key : String) : List String :=
  let parts := Text.cutAt (· == '.') key.toList
  if parts.all fun p => !p.isEmpty && p.all isKeyChar then parts.map String.ofList else [key]

def nested (v : Toml) : List String → Toml
  | [] => v
  | k :: ks => .table [(k, nested v ks)]

def layer (us : List (String × Toml)) (fs : List (String × Toml)) : List (String × Toml) :=
  fs.foldl (fun us (k, v) =>
    match keyPath k with
    | [] => us
    | k :: ks => overlayFields us [(k, nested v ks)]) us

/-! ## Converting -/

def lowered (s : String) : String := String.ofList (Text.lower s.toList)

def truthOf? (s : String) : Option Bool :=
  if ["1", "true", "on", "yes"].contains s then some true
  else if ["0", "false", "off", "no"].contains s then some false
  else none

def toBool? : Toml → Option Bool
  | .bool b => some b
  | .int i => some (i != 0)
  | .float f => some (f != 0)
  | .string s => truthOf? (lowered s)
  | _ => none

def roundedNat : Decimal.Binary → Nat
  | .nan => 0
  | .infinite negative => if negative then 0 else 2 ^ 64 - 1
  | .finite negative m q =>
    if negative then 0
    else min (2 ^ 64 - 1) ((2 * (m * 2 ^ q.toNat) + 2 ^ (-q).toNat) / (2 * 2 ^ (-q).toNat))

def toNat? : Toml → Option Nat
  | .bool b => some (if b then 1 else 0)
  | .int i => if 0 ≤ i then some i.toNat else none
  | .float f => some (roundedNat (.ofFloat f))
  | .string s =>
    if ["true", "on", "yes"].contains (lowered s) then some 1
    else if ["false", "off", "no"].contains (lowered s) then some 0
    else Decimal.readIndex? s.toList
  | _ => none

def toText? : Toml → Option String
  | .bool b => some (if b then "true" else "false")
  | .int i => some (toString i)
  | .float f => some (Decimal.Style.bare.text f)
  | .string s => some s
  | _ => none

def toDelimiters? : Toml → Option Delimiters
  | .array (o :: c :: _) => do return ⟨← toText? o, ← toText? c⟩
  | _ => none

def toTexts? : Toml → Option (List String)
  | .array items => items.mapM toText?
  | _ => none

/-- A severity by its name, which may also be the only key of a table. -/
def toSeverity? : Toml → Option Severity
  | .string s => Severity.ofName? s
  | .table [(k, _)] => Severity.ofName? k
  | _ => none

def toSeverities? : Toml → Option Severities
  | .table fs => fs.mapM fun (k, v) => do return (k, ← toSeverity? v)
  | _ => none

def toDiagnostics? : Toml → Option Severities
  | .table fs => ((Table.get? "severity" fs).map toSeverities?).getD (some [])
  | .array [] => some []
  | .array (v :: _) => toSeverities? v
  | _ => none

def read? {α : Type} (convert : Toml → Option α) (key : String) (default : α)
    (fs : List (String × Toml)) : Option α :=
  match Table.get? key fs with
  | none => some default
  | some v => convert v

def ofTable? (fs : List (String × Toml)) : Option Settings := do
  let standard : Settings := {}
  return {
    debug := ← read? toBool? "debug" standard.debug fs
    delimiters := ← read? toDelimiters? "tags" standard.delimiters fs
    wrapDepth := ← read? toNat? "wrap_depth" standard.wrapDepth fs
    extensions := ← read? toTexts? "template_extensions" standard.extensions fs
    severities := ← read? toDiagnostics? "diagnostics" standard.severities fs }

/-! ## Loading -/

def usable (s : String) : Bool := !s.isEmpty && !s.toList.any Text.isBlank

def validate (s : Settings) : Except SettingsError Settings :=
  if usable s.delimiters.opening && usable s.delimiters.closing then .ok s
  else .error (.invalidDelimiters s.delimiters)

def merge? (texts : List String) : Option (List (String × Toml)) :=
  texts.foldl (fun acc t => do return layer (← acc) (← Toml.read? t)) (some [])

def load (texts : List String) : Except SettingsError Settings :=
  match (merge? texts).bind ofTable? with
  | none => .error .unreadable
  | some s => s.validate

def isTemplate (s : Settings) (p : Path) : Bool :=
  p.extension?.any s.extensions.contains

end Settings

end Stencil
