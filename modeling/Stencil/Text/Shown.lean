import Stencil.Text.Width

/-!
# Text on one line of a terminal

A tab is shown as four blanks and a control character as its picture. What would
change the order of the characters around it is replaced, and a joiner is left out.
-/

set_option autoImplicit false

namespace Stencil.Text

def turns (c : Char) : Bool :=
  ('\u202a' ≤ c && c ≤ '\u202e') || ('\u2066' ≤ c && c ≤ '\u2069')

def isControl (c : Char) : Bool := c.toNat < 0x20 || c.toNat == 0x7F

def picture (c : Char) : Char :=
  if c.toNat == 0x7F then '\u2421' else Char.ofNat (0x2400 + c.toNat)

def shownChar (c : Char) : List Char :=
  if c = '\t' then [' ', ' ', ' ', ' ']
  else if c = '\u200d' then []
  else if turns c then ['\ufffd']
  else if isControl c then [picture c]
  else [c]

def shown (s : List Char) : List Char := s.flatMap shownChar

def shownColumns (c : Char) : Nat :=
  if c = '\t' then 4 else if turns c || isControl c then 1 else columns c

def shownWidth (s : List Char) : Nat := (s.map shownColumns).sum

end Stencil.Text
