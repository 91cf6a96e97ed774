import Stencil.Path

/-!
# File trees

What a disk holds, as far as it matters: files and directories by the parts of
their path from the top. The directories on the way to an entry are there without
an entry of their own.
-/

set_option autoImplicit false

namespace Stencil

inductive FileEntry
  /-- A file; without a text if its bytes do not encode one. -/
  | file (text : Option String)
  | directory
deriving DecidableEq, Repr

inductive FileError
  | notFound
  | notDirectory
  | isDirectory
  | notText
deriving DecidableEq, Repr

def FileError.message : FileError → String
  | notFound => "No such file or directory (os error 2)"
  | notDirectory => "Not a directory (os error 20)"
  | isDirectory => "Is a directory (os error 21)"
  | notText => "stream did not contain valid UTF-8"

abbrev FileTree : Type := List (List String × FileEntry)

namespace FileTree

def entry? (t : FileTree) (parts : List String) : Option FileEntry :=
  match t.find? fun e => e.1 == parts with
  | some e => some e.2
  | none => if t.any fun e => parts.isPrefixOf e.1 then some .directory else none

def has (t : FileTree) (parts : List String) : Bool := (t.entry? parts).isSome

def text? (t : FileTree) (parts : List String) : Option String :=
  match t.entry? parts with
  | some (.file text) => text
  | _ => none

def step (t : FileTree) (at_ : List String) (piece : String) : Except FileError (List String) :=
  match t.entry? at_ with
  | none => .error .notFound
  | some (.file _) => .error .notDirectory
  | some .directory =>
    if piece = "" ∨ piece = "." then .ok at_
    else if piece = ".." then .ok at_.dropLast
    else if t.has (at_ ++ [piece]) then .ok (at_ ++ [piece])
    else .error .notFound

def locate (t : FileTree) (base : List String) (path : String) : Except FileError (List String) :=
  if path = "" then .error .notFound
  else
    let start := if path.toList.head? = some '/' then [] else base
    ((Path.pieces path.toList).map String.ofList).foldlM t.step start

def read (t : FileTree) (base : List String) (path : String) : Except FileError String := do
  match t.entry? (← t.locate base path) with
  | some (.file (some text)) => return text
  | some (.file none) => throw .notText
  | some .directory => throw .isDirectory
  | none => throw .notFound

def filesIn (t : FileTree) (directory : List String) : List (List String) :=
  t.filterMap fun (parts, e) =>
    match e with
    | .file _ => if directory.isPrefixOf parts && parts ≠ directory then some parts else none
    | .directory => none

end FileTree

end Stencil
