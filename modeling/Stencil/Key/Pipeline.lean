import Stencil.Key.TopLevel
import Stencil.Value.Basic

/-!
# Keys

A key names a field and, behind bars, the formatters its value goes through,
each with literal arguments. What is malformed is read as well as it can be.
-/

set_option autoImplicit false

namespace Stencil

open Text

structure Step where
  name : String
  args : List Value

structure Pipeline where
  field : List Char
  steps : List Step

namespace Key

def literal (s : List Char) : Value :=
  match unquote? s with
  | some t => .string (String.ofList t)
  | none =>
    let word := String.ofList s
    if word = "true" then .bool true
    else if word = "false" then .bool false
    else if word = "null" ∨ word = "undefined" then .null
    else
      let numeric := match s with
        | c :: _ => c.isDigit || c == '-' || c == '+' || c == '.'
        | [] => false
      if numeric then
        match Decimal.readInt? s with
        | some i => .int (Int64.ofInt i)
        | none =>
          match Decimal.readFloat? s with
          | some f => .float f
          | none => .string word
      else .string word

def readArguments (s : List Char) : List Value :=
  (((split ',' (arguments {} s)).map trim).filter (· ≠ [])).map literal

def readStep? (s : List Char) : Option Step :=
  let t := trim s
  let name := trim (t.takeWhile (· != '('))
  if name.isEmpty then none
  else some ⟨String.ofList name,
    match t.dropWhile (· != '(') with
    | [] => []
    | _ :: r => readArguments r⟩

def parse (key : List Char) : Pipeline :=
  let (field, rest) := cutFrom '|' {} key
  ⟨trim field, rest.filterMap readStep?⟩

def hasPipeline (key : List Char) : Bool := meets '|' {} key

def head (path : List Char) : List Char × Option (List Char) :=
  (path.takeWhile (· != '.'),
    match path.dropWhile (· != '.') with
    | [] => none
    | _ :: r => some r)

theorem cutFrom_length_le (d : Char) (p : Place) (s : List Char) :
    (cutFrom d p s).1.length ≤ s.length := by
  induction s generalizing p with
  | nil => simp [cutFrom]
  | cons c s ih =>
    simp only [cutFrom]
    split
    · simp
    · simpa using ih (p.step c)

theorem field_length_le (key : List Char) : (parse key).field.length ≤ key.length :=
  Nat.le_trans (trim_length_le _) (cutFrom_length_le '|' {} key)

theorem head_length_lt {path r : List Char} (h : (head path).2 = some r) :
    r.length < path.length := by
  simp only [head] at h
  split at h
  · simp at h
  · next c t hd =>
    cases h
    have := (List.dropWhile_sublist (l := path) (· != '.')).length_le
    rw [hd, List.length_cons] at this
    exact this

end Key

end Stencil
