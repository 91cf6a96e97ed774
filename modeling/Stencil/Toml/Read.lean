import Stencil.Toml.Document
import Stencil.Toml.Quoted
import Stencil.Toml.Scalar

/-!
# Reading TOML

A document is read line by line. Whatever breaks the grammar or defines
something twice makes the whole of it unreadable.
-/

set_option autoImplicit false

namespace Stencil.Toml

def isBareKey (c : Char) : Bool := c.isAlphanum || c == '-' || c == '_'

def skipSpace (s : List Char) : List Char := s.dropWhile isSpace

def readPart? (s : List Char) : Option (String × List Char) :=
  match s with
  | '"' :: r => do
    let (t, r) ← readLine? '"' (r.length + 1) r
    some (String.ofList t, r)
  | '\'' :: r => do
    let (t, r) ← readLine? '\'' (r.length + 1) r
    some (String.ofList t, r)
  | s =>
    let w := s.takeWhile isBareKey
    if w.isEmpty then none else some (String.ofList w, s.dropWhile isBareKey)

def readKey? : (fuel : Nat) → List Char → Option (List String × List Char)
  | 0, _ => none
  | fuel + 1, s => do
    let (k, r) ← readPart? (skipSpace s)
    match skipSpace r with
    | '.' :: r => do
      let (ks, r) ← readKey? fuel r
      some (k :: ks, r)
    | r => some ([k], r)

def skipComment? : List Char → Option (List Char)
  | '#' :: r =>
    let text := r.takeWhile fun c => c != '\n' && c != '\r'
    if text.any isControl then none else some (r.dropWhile fun c => c != '\n' && c != '\r')
  | r => some r

def skipFiller? : (fuel : Nat) → List Char → Option (List Char)
  | 0, _ => none
  | fuel + 1, s => do
    let r ← skipComment? (skipSpace s)
    match afterBreak? r with
    | some r => skipFiller? fuel r
    | none => some r

def endLine? (s : List Char) : Option (List Char) := do
  let r ← skipComment? (skipSpace s)
  match r with
  | [] => some []
  | r => afterBreak? r

def isScalarChar (c : Char) : Bool :=
  c.isAlphanum || c == '+' || c == '-' || c == '_' || c == '.' || c == ':'

def takeScalar (s : List Char) : List Char × List Char :=
  let w := s.takeWhile isScalarChar
  match s.dropWhile isScalarChar with
  | ' ' :: r =>
    if (readDate? w).any (·.2.isEmpty) && (r.head?.map Char.isDigit).getD false then
      (w ++ ' ' :: r.takeWhile isScalarChar, r.dropWhile isScalarChar)
    else (w, ' ' :: r)
  | r => (w, r)

mutual

def readValue? : (fuel : Nat) → List Char → Option (Toml × List Char)
  | 0, _ => none
  | fuel + 1, s =>
    match s with
    | '"' :: r => do
      let (t, r) ← readQuoted? '"' r
      some (.string (String.ofList t), r)
    | '\'' :: r => do
      let (t, r) ← readQuoted? '\'' r
      some (.string (String.ofList t), r)
    | '[' :: r => do
      let (items, r) ← readItems? fuel r
      some (.array items, r)
    | '\x7b' :: r => do
      let (es, r) ← readFields? fuel [] r
      some (.table (Entry.finishAll es), r)
    | s =>
      let (w, r) := takeScalar s
      (readBare? w).map (·, r)

def readItems? : (fuel : Nat) → List Char → Option (List Toml × List Char)
  | 0, _ => none
  | fuel + 1, s => do
    match ← skipFiller? (s.length + 1) s with
    | ']' :: r => some ([], r)
    | r =>
      let (v, r) ← readValue? fuel r
      match ← skipFiller? (r.length + 1) r with
      | ',' :: r => do
        let (vs, r) ← readItems? fuel r
        some (v :: vs, r)
      | ']' :: r => some ([v], r)
      | _ => none

def readFields? : (fuel : Nat) → Entries → List Char → Option (Entries × List Char)
  | 0, _, _ => none
  | fuel + 1, es, s => do
    match ← skipFiller? (s.length + 1) s with
    | '\x7d' :: r => some (es, r)
    | r =>
      let (path, r) ← readKey? (r.length + 1) r
      match r with
      | '=' :: r => do
        let (v, r) ← readValue? fuel (skipSpace r)
        let es ← atPath true (fun k => define k v) path es
        match ← skipFiller? (r.length + 1) r with
        | ',' :: r => readFields? fuel es r
        | '\x7d' :: r => some (es, r)
        | _ => none
      | _ => none

end

structure Progress where
  entries : Entries := []
  current : List String := []

def readEntry? (p : Progress) (s : List Char) : Option (Progress × List Char) :=
  match s with
  | '[' :: '[' :: r => do
    let (path, r) ← readKey? (r.length + 1) r
    match r with
    | ']' :: ']' :: r => do
      let es ← atPath false openElement path p.entries
      some (⟨es, path⟩, ← endLine? r)
    | _ => none
  | '[' :: r => do
    let (path, r) ← readKey? (r.length + 1) r
    match r with
    | ']' :: r => do
      let es ← atPath false openTable path p.entries
      some (⟨es, path⟩, ← endLine? r)
    | _ => none
  | s => do
    let (path, r) ← readKey? (s.length + 1) s
    match r with
    | '=' :: r => do
      let r := skipSpace r
      let (v, r) ← readValue? (2 * r.length + 2) r
      let es ← descend false (atPath true (fun k => define k v) path) p.current p.entries
      some (⟨es, p.current⟩, ← endLine? r)
    | _ => none

def readEntries? : (fuel : Nat) → Progress → List Char → Option Progress
  | 0, _, _ => none
  | fuel + 1, p, s => do
    match ← skipFiller? (s.length + 1) s with
    | [] => some p
    | r =>
      let (p, r) ← readEntry? p r
      readEntries? fuel p r

def read? (text : String) : Option (List (String × Toml)) := do
  let s := match text.toList with
    | c :: r => if c.toNat = 0xFEFF then r else c :: r
    | [] => []
  let p ← readEntries? (s.length + 1) {} s
  some (Entry.finishAll p.entries)

end Stencil.Toml
