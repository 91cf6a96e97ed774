/-!
# Paths

File paths as texts with slashes. Empty parts and single dots name nothing, but
for a dot in front.
-/

set_option autoImplicit false

namespace Stencil

structure Path where
  absolute : Bool
  parts : List String
deriving DecidableEq, Repr

namespace Path

def pieces : List Char → List (List Char)
  | [] => [[]]
  | c :: r =>
    if c = '/' then [] :: pieces r
    else match pieces r with
      | [] => [[c]]
      | w :: ws => (c :: w) :: ws

def ofString (s : String) : Path :=
  let cs := s.toList
  let all := (pieces cs).map String.ofList
  let kept := all.filter fun p => p != "" && p != "."
  let absolute := cs.head? == some '/'
  ⟨absolute, if !absolute && all.head? == some "." then "." :: kept else kept⟩

def text (p : Path) : String :=
  (if p.absolute then "/" else "") ++ "/".intercalate p.parts

def fileName? (p : Path) : Option String :=
  match p.parts.getLast? with
  | some "." | some ".." | none => none
  | some name => some name

def splitName (name : String) : String × Option String :=
  let cs := name.toList.reverse
  let tail := cs.takeWhile (· != '.')
  match cs.dropWhile (· != '.') with
  | [] | ['.'] => (name, none)
  | _ :: stem => (String.ofList stem.reverse, some (String.ofList tail.reverse))

def extension? (p : Path) : Option String := p.fileName?.bind fun n => (splitName n).2

def stem? (p : Path) : Option String := p.fileName?.map fun n => (splitName n).1

end Path

end Stencil
