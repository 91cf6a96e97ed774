import Stencil.Text.Blank

/-!
# Top level

Keys are cut at characters that stand outside of quotes and parentheses. Inside
quotes a backslash takes the character behind it out of play; a closing
parenthesis without an opening one closes nothing.
-/

set_option autoImplicit false

namespace Stencil.Key

structure Place where
  quote : Option Char := none
  escaped : Bool := false
  depth : Nat := 0
deriving DecidableEq, Repr

namespace Place

def isQuote (c : Char) : Bool := c == '"' || c == '\''

def step (p : Place) (c : Char) : Place :=
  if p.escaped then { p with escaped := false }
  else match p.quote with
    | some q =>
      if c = '\\' then { p with escaped := true }
      else if c = q then { p with quote := none }
      else p
    | none =>
      if isQuote c then { p with quote := some c }
      else if c = '(' then { p with depth := p.depth + 1 }
      else if c = ')' then { p with depth := p.depth - 1 }
      else p

def top (p : Place) : Bool := p.quote.isNone && !p.escaped && p.depth == 0

end Place

def cutFrom (d : Char) (p : Place) : List Char → List Char × List (List Char)
  | [] => ([], [])
  | c :: r =>
    if p.top && c == d then
      let (w, ws) := cutFrom d p r
      ([], w :: ws)
    else
      let (w, ws) := cutFrom d (p.step c) r
      (c :: w, ws)

def split (d : Char) (s : List Char) : List (List Char) :=
  let (w, ws) := cutFrom d {} s
  w :: ws

def meets (d : Char) (p : Place) : List Char → Bool
  | [] => false
  | c :: r => (p.top && c == d) || meets d (p.step c) r

def arguments (p : Place) : List Char → List Char
  | [] => []
  | c :: r => if p.top && c == ')' then [] else c :: arguments (p.step c) r

def unescaped : (escaped : Bool) → List Char → List Char
  | _, [] => []
  | true, c :: r => c :: unescaped false r
  | false, c :: r => if c = '\\' then unescaped true r else c :: unescaped false r

def unquote? : List Char → Option (List Char)
  | [] => none
  | q :: r =>
    if Place.isQuote q && r.getLast? == some q then some (unescaped false r.dropLast) else none

end Stencil.Key
