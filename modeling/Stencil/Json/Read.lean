import Stencil.Json.Number
import Stencil.Text.Blank

/-!
# Reading JSON

The strict grammar, and fewer than 128 levels of nesting. Of a repeated key the
last value counts.
-/

set_option autoImplicit false

namespace Stencil.Json

def nestingLimit : Nat := 127

def isSpace (c : Char) : Bool := c == ' ' || c == '\n' || c == '\t' || c == '\r'

def skipSpace (s : List Char) : List Char := s.dropWhile isSpace

def hexValue? (c : Char) : Option Nat :=
  if c.isDigit then some (c.toNat - '0'.toNat)
  else if 'a' ≤ c ∧ c ≤ 'f' then some (c.toNat - 'a'.toNat + 10)
  else if 'A' ≤ c ∧ c ≤ 'F' then some (c.toNat - 'A'.toNat + 10)
  else none

def readUnit? : List Char → Option (Nat × List Char)
  | a :: b :: c :: d :: r => do
    let n := 4096 * (← hexValue? a) + 256 * (← hexValue? b) + 16 * (← hexValue? c) + (← hexValue? d)
    some (n, r)
  | _ => none

def readScalar? (s : List Char) : Option (Char × List Char) := do
  let (n, r) ← readUnit? s
  if 0xD800 ≤ n ∧ n < 0xDC00 then
    match r with
    | '\\' :: 'u' :: r =>
      let (m, r) ← readUnit? r
      if 0xDC00 ≤ m ∧ m < 0xE000 then
        some (Char.ofNat (0x10000 + (n - 0xD800) * 0x400 + (m - 0xDC00)), r)
      else none
    | _ => none
  else if 0xDC00 ≤ n ∧ n < 0xE000 then none
  else some (Char.ofNat n, r)

def shortEscape? : Char → Option Char
  | '"' => some '"'
  | '\\' => some '\\'
  | '/' => some '/'
  | 'b' => some (Char.ofNat 0x08)
  | 'f' => some (Char.ofNat 0x0C)
  | 'n' => some '\n'
  | 'r' => some '\r'
  | 't' => some '\t'
  | _ => none

def readText? : (fuel : Nat) → List Char → Option (List Char × List Char)
  | 0, _ => none
  | _ + 1, [] => none
  | fuel + 1, c :: r =>
    if c = '"' then some ([], r)
    else if c = '\\' then
      match r with
      | 'u' :: r => do
        let (d, r) ← readScalar? r
        let (t, r) ← readText? fuel r
        some (d :: t, r)
      | e :: r => do
        let d ← shortEscape? e
        let (t, r) ← readText? fuel r
        some (d :: t, r)
      | [] => none
    else if c.toNat < 0x20 then none
    else do
      let (t, r) ← readText? fuel r
      some (c :: t, r)

def readString? (s : List Char) : Option (String × List Char) := do
  let (t, r) ← readText? (s.length + 1) s
  some (String.ofList t, r)

def afterWord? (word : String) (v : Json) (s : List Char) : Option (Json × List Char) :=
  (Text.after? word.toList s).map (v, ·)

mutual

def readValue? : (fuel depth : Nat) → List Char → Option (Json × List Char)
  | 0, _, _ => none
  | fuel + 1, depth, s =>
    match skipSpace s with
    | '"' :: r => do
      let (t, r) ← readString? r
      some (.string t, r)
    | '[' :: r =>
      match depth with
      | 0 => none
      | depth + 1 =>
        match skipSpace r with
        | ']' :: r => some (.array [], r)
        | r => do
          let (items, r) ← readItems? fuel depth r
          some (.array items, r)
    | '\x7b' :: r =>
      match depth with
      | 0 => none
      | depth + 1 =>
        match skipSpace r with
        | '\x7d' :: r => some (.object [], r)
        | r => do
          let (fields, r) ← readFields? fuel depth r
          some (.object (Table.ofList fields), r)
    | 't' :: r => afterWord? "rue" (.bool true) r
    | 'f' :: r => afterWord? "alse" (.bool false) r
    | 'n' :: r => afterWord? "ull" .null r
    | r => readNumber? r

def readItems? : (fuel depth : Nat) → List Char → Option (List Json × List Char)
  | 0, _, _ => none
  | fuel + 1, depth, s => do
    let (v, r) ← readValue? fuel depth s
    match skipSpace r with
    | ']' :: r => some ([v], r)
    | ',' :: r => do
      let (vs, r) ← readItems? fuel depth r
      some (v :: vs, r)
    | _ => none

def readFields? : (fuel depth : Nat) → List Char → Option (List (String × Json) × List Char)
  | 0, _, _ => none
  | fuel + 1, depth, s =>
    match skipSpace s with
    | '"' :: r => do
      let (k, r) ← readString? r
      match skipSpace r with
      | ':' :: r => do
        let (v, r) ← readValue? fuel depth r
        match skipSpace r with
        | '\x7d' :: r => some ([(k, v)], r)
        | ',' :: r => do
          let (fs, r) ← readFields? fuel depth r
          some ((k, v) :: fs, r)
        | _ => none
      | _ => none
    | _ => none

end

/-- Reads a whole text. Every call takes a character, so the fuel suffices. -/
def read? (text : String) : Option Json := do
  let s := text.toList
  let (v, r) ← readValue? (2 * s.length + 2) nestingLimit s
  if (skipSpace r).isEmpty then some v else none

end Stencil.Json
