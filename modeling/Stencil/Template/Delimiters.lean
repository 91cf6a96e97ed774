import Stencil.Text.Blank

/-!
# Delimiters

The pair of texts that open and close a tag.
-/

set_option autoImplicit false

namespace Stencil

structure Delimiters where
  opening : String
  closing : String
deriving DecidableEq, Repr

namespace Delimiters

def standard : Delimiters := ⟨"\x7b\x7b", "\x7d\x7d"⟩

instance : Inhabited Delimiters := ⟨standard⟩

def parse? (pair : List Char) : Option Delimiters :=
  match Text.words pair with
  | [o, c] => some ⟨String.ofList o, String.ofList c⟩
  | _ => none

def text (d : Delimiters) : String := d.opening ++ " " ++ d.closing

end Delimiters

end Stencil
