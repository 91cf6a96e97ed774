import Stencil.Text.Shown
import Stencil.Text.Blank

/-!
# Lines of a source

A source in lines, and the place of a byte offset in them. A line ends with a
line feed, before which a carriage return does not count; a line feed at the end
of the source opens no further line.
-/

set_option autoImplicit false

namespace Stencil

structure SourceLine where
  number : Nat
  text : List Char
  /-- The offset of its first byte. -/
  start : Nat
  /-- The offset behind its line break. -/
  stop : Nat
  /-- The bytes of its line break. -/
  ending : Nat
deriving DecidableEq, Repr

namespace SourceLine

def empty : SourceLine := ⟨1, [], 0, 0, 0⟩

def withoutReturn (s : List Char) : List Char × Nat :=
  if s.getLast? = some '\r' then (s.dropLast, 2) else (s, 1)

def numbered (n start : Nat) : List (List Char) → List SourceLine
  | [] => []
  | [last] =>
    if last.isEmpty then [] else [⟨n, last, start, start + Text.byteLength last, 0⟩]
  | piece :: rest =>
    let (text, ending) := withoutReturn piece
    let stop := start + Text.byteLength piece + 1
    ⟨n, text, start, stop, ending⟩ :: numbered (n + 1) stop rest

def ofSource (source : List Char) : List SourceLine :=
  match numbered 1 0 (Text.cutAt (· == '\n') source) with
  | [] => [empty]
  | lines => lines

def holding (lines : List SourceLine) (offset : Nat) : SourceLine :=
  (lines.find? fun l => l.start ≤ offset && offset < l.stop).getD (lines.getLastD empty)

def before (l : SourceLine) (offset : Nat) : List Char :=
  match Text.splitBytes (offset - l.start) l.text with
  | some (s, _) => s
  | none => l.text

def isBare (s : List Char) : Bool :=
  match s with
  | [] => true
  | [c] => "\x7b\x7d()[]".toList.contains c
  | _ => false

def isRemark (s : List Char) : Bool :=
  (Text.after? ['/', '/'] s).any fun r => r.head? != some '/' && r.head? != some '!'

def significant (l : SourceLine) : Bool :=
  let s := Text.trim l.text
  !isBare s && !isRemark s

end SourceLine

structure Place where
  line : SourceLine
  characters : Nat
  columns : Nat
deriving DecidableEq, Repr

namespace Place

def ofOffset (lines : List SourceLine) (offset : Nat) : Place :=
  let line := SourceLine.holding lines offset
  let s := line.before offset
  ⟨line, s.length, Text.shownWidth s⟩

def first (lines : List SourceLine) (offset : Nat) : Place :=
  let p := Place.ofOffset lines offset
  if p.line.start + Text.byteLength p.line.text < offset then
    { p with characters := p.characters + 1 }
  else p

/-- The place where a span stops. One that goes on past its first line also marks
the line break that it stops behind. -/
def last (lines : List SourceLine) (start : Place) (offset : Nat) : Place :=
  let p := Place.ofOffset lines offset
  if p.line.number ≠ start.line.number ∧ p.line.stop - p.line.ending < offset then
    { p with columns := p.columns + 1 }
  else p

end Place

end Stencil
