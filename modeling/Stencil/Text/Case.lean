import Stencil.Text.CaseTable

/-!
# Case

Upper and lower case of texts. A capital sigma at the end of a word has a lower
case of its own; lowering a single character knows no words.
-/

set_option autoImplicit false

namespace Stencil.Text

def mapCase (runs : List CaseRun) (expansions : List (Nat × List Nat)) (c : Char) : List Char :=
  match expansions.lookup c.toNat with
  | some ns => ns.map Char.ofNat
  | none =>
    match runs.find? (·.has c.toNat) with
    | some r => [Char.ofNat (c.toNat + r.offset).toNat]
    | none => [c]

def upperChar (c : Char) : List Char := mapCase upperRuns upperExpansions c

def lowerChar (c : Char) : List Char := mapCase lowerRuns lowerExpansions c

def upper (s : List Char) : List Char := s.flatMap upperChar

def meetsCased (s : List Char) : Bool :=
  match s.dropWhile caseIgnorables.has with
  | c :: _ => casedCharacters.has c
  | [] => false

/-- `seen` is the text before, nearest character first. -/
def lowerFrom (seen : List Char) : List Char → List Char
  | [] => []
  | c :: r =>
    (if c = 'Σ' then if meetsCased seen && !meetsCased r then ['ς'] else ['σ'] else lowerChar c) ++
      lowerFrom (c :: seen) r

def lower (s : List Char) : List Char := lowerFrom [] s

def capitalize : List Char → List Char
  | [] => []
  | c :: r => upperChar c ++ r

end Stencil.Text
