import Stencil.Text.Unprintable

/-!
# Quoted text

Text between double quotes, for JSON and for people who look into a value. JSON
escapes control characters alone; the other form escapes all that would not
show.
-/

set_option autoImplicit false

namespace Stencil.Text

def hex (width n : Nat) : List Char :=
  let ds := Nat.toDigits 16 n
  List.replicate (width - ds.length) '0' ++ ds

def jsonEscape (c : Char) : List Char :=
  match c with
  | '"' => ['\\', '"']
  | '\\' => ['\\', '\\']
  | '\n' => ['\\', 'n']
  | '\r' => ['\\', 'r']
  | '\t' => ['\\', 't']
  | c =>
    if c.toNat = 0x08 then ['\\', 'b']
    else if c.toNat = 0x0C then ['\\', 'f']
    else if c.toNat < 0x20 then '\\' :: 'u' :: hex 4 c.toNat
    else [c]

def jsonQuoted (s : List Char) : List Char := '"' :: s.flatMap jsonEscape ++ ['"']

def inspectEscape (c : Char) : List Char :=
  match c with
  | '"' => ['\\', '"']
  | '\\' => ['\\', '\\']
  | '\n' => ['\\', 'n']
  | '\r' => ['\\', 'r']
  | '\t' => ['\\', 't']
  | c =>
    if c.toNat = 0 then ['\\', '0']
    else if isUnprintable c then "\\u\x7b".toList ++ hex 1 c.toNat ++ ['\x7d']
    else [c]

def inspectQuoted (s : List Char) : List Char := '"' :: s.flatMap inspectEscape ++ ['"']

end Stencil.Text
