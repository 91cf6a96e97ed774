import Stencil.Lookup.Path

/-!
# Scopes

A name is looked up in the frame it stands in and then in those around it. A
frame that answers keys itself is asked first and read as plain data after. A
dot is the frame itself, and a name that starts with one stays in its frame. A
getter that is found is called with the frame the search started from. A frame
remembers what it resolved, misses included.
-/

set_option autoImplicit false

namespace Stencil

variable {σ : Type}

structure Scope where
  value : Value
  outer : List Value := []

def Scope.push (s : Scope) (v : Value) : Scope := ⟨v, s.value :: s.outer⟩

abbrev Memo : Type := List (String × Option Value)

def resolveLocal (env : Env σ) (v : Value) (name : List Char) : StateM σ (Option Value) :=
  match ask? env v name with
  | none => walkOwn env v name
  | some answer => do
    match ← answer with
    | .ok (some w) => pure (some w)
    | .ok none | .error _ => walkOwn env v name

def resolveFirst (env : Env σ) (name : List Char) : List Value → StateM σ (Option Value)
  | [] => pure none
  | v :: vs => do
    match ← resolveLocal env v name with
    | some w => pure (some w)
    | none => resolveFirst env name vs

namespace Scope

def find (env : Env σ) (s : Scope) : (name : List Char) → StateM σ (Option Value)
  | ['.'] => pure (some s.value)
  | '.' :: r => resolveLocal env s.value r
  | name => resolveFirst env name (s.value :: s.outer)

def resolveAfresh (env : Env σ) (s : Scope) (name : List Char) : StateM σ (Option Value) := do
  match ← s.find env name with
  | some (.getter id) => do return some (← env.host.getter id s.value)
  | found => pure found

def resolve (env : Env σ) (s : Scope) (name : List Char) :
    StateT Memo (StateM σ) (Option Value) := do
  match (← get).lookup (String.ofList name) with
  | some hit => pure hit
  | none =>
    let found ← s.resolveAfresh env name
    modify ((String.ofList name, found) :: ·)
    pure found

def lookup (env : Env σ) (s : Scope) (key : List Char) : StateT Memo (StateM σ) Value :=
  if Key.hasPipeline key then do
    let p := Key.parse key
    let found ← s.resolve env p.field
    env.host.run env.formatters p.steps (found.getD .null)
  else do
    let found ← s.resolve env key
    pure (found.getD .null)

end Scope

end Stencil
