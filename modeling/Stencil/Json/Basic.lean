import Stencil.Decimal.Style
import Stencil.Table
import Stencil.Text.Quoted

/-!
# JSON

Plain JSON values, in which whole numbers and floats are kept apart, and their
compact text. The entries of an object stand in the order of their keys.
-/

set_option autoImplicit false

namespace Stencil

inductive Json
  | null
  | bool (b : Bool)
  | int (i : Int)
  | float (f : Float)
  | string (s : String)
  | array (items : List Json)
  | object (fields : List (String × Json))
deriving Inhabited

namespace Json

mutual

def write : Json → List Char
  | null => "null".toList
  | bool b => (if b then "true" else "false").toList
  | int i => (toString i).toList
  | float f => Decimal.Style.json.write (.ofFloat f)
  | string s => Text.jsonQuoted s.toList
  | array [] => ['[', ']']
  | array (j :: js) => '[' :: write j ++ writeItems js
  | object [] => ['\x7b', '\x7d']
  | object ((k, j) :: fs) =>
    '\x7b' :: Text.jsonQuoted k.toList ++ ':' :: write j ++ writeFields fs

def writeItems : List Json → List Char
  | [] => [']']
  | j :: js => ',' :: write j ++ writeItems js

def writeFields : List (String × Json) → List Char
  | [] => ['\x7d']
  | (k, j) :: fs => ',' :: Text.jsonQuoted k.toList ++ ':' :: write j ++ writeFields fs

end

def text (j : Json) : String := String.ofList j.write

end Json

end Stencil
