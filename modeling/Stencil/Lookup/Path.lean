import Stencil.Lookup.Host

/-!
# Paths

A dotted path is walked property by property. An accessor met on the way gets
the rest of the path in one piece and its answer is final. A node does too: it
takes its key apart, walks the field from its own properties and runs the
formatters, which see a missing field as nothing.
-/

set_option autoImplicit false

namespace Stencil

variable {σ : Type}

def dropDot : List Char → List Char
  | '.' :: r => r
  | s => s

theorem dropDot_length_le (s : List Char) : (dropDot s).length ≤ s.length := by
  unfold dropDot
  split <;> simp

/-- What a node answers when `found` is what its field is. -/
def formatted (env : Env σ) (owner : Owner) (fields : List (String × Value)) (steps : List Step)
    (found : Option Value) : StateM σ (Option Value) :=
  if steps.isEmpty then pure found
  else do
    let w ← match found with
      | some (.getter id) => env.host.getter id (.object fields)
      | some w => pure w
      | none => pure .null
    let out ← env.host.run (env.registry owner) steps w
    pure (some out)

def walk (env : Env σ) (v : Value) : Option (List Char) → StateM σ (Option Value)
  | none => pure (some v)
  | some path =>
    match v with
    | .accessor id _ _ => fun s =>
      match env.host.get id (String.ofList path) s with
      | (.ok found, s) => (found, s)
      | (.error _, s) => (none, s)
    | .node _ owner fields => do
      let p := Key.parse path
      let field := dropDot p.field
      let found ←
        if field.isEmpty then pure (some (.object fields))
        else
          match Table.get? (String.ofList (Key.head field).1) fields with
          | none => pure none
          | some w =>
            match h : (Key.head field).2 with
            | none => pure (some w)
            | some r =>
              have : r.length < path.length :=
                Nat.lt_of_lt_of_le (Key.head_length_lt h)
                  (Nat.le_trans (dropDot_length_le _) (Key.field_length_le path))
              walk env w (some r)
      formatted env owner fields p.steps found
    | v =>
      match v.property (String.ofList (Key.head path).1) with
      | none => pure none
      | some w =>
        match h : (Key.head path).2 with
        | none => pure (some w)
        | some r =>
          have : r.length < path.length := Key.head_length_lt h
          walk env w (some r)
termination_by path => match path with
  | none => 0
  | some p => p.length + 1

def walkOwn (env : Env σ) (v : Value) (path : List Char) : StateM σ (Option Value) :=
  match v.property (String.ofList (Key.head path).1) with
  | none => pure none
  | some w => walk env w (Key.head path).2

/-- Asks a value that answers keys itself; nothing if it does not do that. -/
def ask? (env : Env σ) (v : Value) (key : List Char) :
    Option (StateM σ (Except LookupError (Option Value))) :=
  match v with
  | .accessor id _ _ => some (env.host.get id (String.ofList key))
  | .node .. => some (do return .ok (← walk env v (some key)))
  | _ => none

end Stencil
