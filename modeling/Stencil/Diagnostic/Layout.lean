import Stencil.Diagnostic.Basic
import Stencil.Diagnostic.SourceLine

/-!
# Layout of diagnostics

A report as lines of text: the message, the place, the marked lines of the source
with their numbers in a gutter, and the notes. A span in one line is underlined;
one over several lines has a bar along it that ends under its last character.
Long stretches of lines that tell nothing are left out.
-/

set_option autoImplicit false

namespace Stencil

namespace Layout

def blanks (n : Nat) : List Char := List.replicate n ' '

def digits (n : Nat) : List Char := (toString n).toList

def padded (width n : Nat) : List Char := blanks (width - (digits n).length) ++ digits n

inductive Row
  | source (number : Nat) (body : List Char)
  | mark (body : List Char)
  | gap
deriving DecidableEq, Repr

def Row.text (gutter : Nat) : Row → List Char
  | source n body => padded gutter n ++ " |".toList ++ body
  | mark body => blanks (gutter + 1) ++ '|' :: body
  | gap => "...".toList ++ blanks gutter ++ ['|']

def codeText (l : SourceLine) : List Char :=
  let s := Text.shown l.text
  if s.all Text.isBlank then [] else ' ' :: s

def underlined (first last : Place) (label : List Char) : List Row :=
  [.source first.line.number (codeText first.line),
   .mark (blanks (first.columns + 1) ++
    List.replicate (max 1 (last.columns - first.columns)) '^' ++ ' ' :: label)]

def barred (bar : Char) (l : SourceLine) : Row :=
  .source l.number (' ' :: bar :: codeText l)

def opening (first : Place) : List Row :=
  if ((Text.shown first.line.text).take first.columns).all Text.isBlank then
    [barred '/' first.line]
  else
    [barred ' ' first.line, .mark (blanks 2 ++ List.replicate (first.columns + 1) '_' ++ ['^'])]

def closing (last : Place) (label : List Char) : Row :=
  .mark (" |".toList ++ List.replicate (max 1 last.columns) '_' ++
    (if last.columns = 0 then [' '] else ['^']) ++ ' ' :: label)

def shownLines (lines : List SourceLine) (first last : SourceLine) : List SourceLine :=
  let middle := min (first.number + 4) last.number
  let within := lines.filter fun l => first.number ≤ l.number && l.number < middle
  let top := (within.reverse.dropWhile fun l => !l.significant).reverse.drop 1
  let tail := lines.filter fun l =>
    l.number + 1 == last.number && middle < l.number && l.significant
  top ++ tail ++ [last]

def bridge (lines : List SourceLine) (above below : Nat) : List Row :=
  if below ≤ above + 1 then []
  else if below = above + 2 then
    (lines.filter fun l => l.number == above + 1).map (barred '|')
  else [.gap]

def follow (lines : List SourceLine) (above : Nat) : List SourceLine → List Row
  | [] => []
  | l :: rest => bridge lines above l.number ++ barred '|' l :: follow lines l.number rest

def barredRows (lines : List SourceLine) (first last : Place) (label : List Char) : List Row :=
  opening first ++
    follow lines first.line.number (shownLines lines first.line last.line) ++
    [closing last label]

def title (d : Diagnostic) : List (List Char) :=
  let head := (d.level.word ++ "[" ++ d.code ++ "]: ").toList
  match Text.cutAt (· == '\n') (shownMessage d.message) with
  | [] => [head]
  | l :: ls => (head ++ l) :: ls.map (blanks head.length ++ ·)
where
  /-- A message as it is shown, with its line breaks. -/
  shownMessage (s : String) : List Char :=
    s.toList.flatMap fun c => if c = '\n' then [c] else Text.shownChar c

def noteLines (gutter : Nat) (ns : List String) : List (List Char) :=
  if ns.isEmpty then []
  else (Row.mark []).text gutter ::
    ns.map fun n => blanks (gutter + 1) ++ "= note: ".toList ++ n.toList

end Layout

namespace Diagnostic

open Layout

def marked (d : Diagnostic) : Nat × Nat :=
  let size := Text.byteLength d.source.toList
  let start := min d.span.start.toNat size
  (start, max start (min d.span.stop.toNat size))

def lines (d : Diagnostic) : List (List Char) :=
  let (start, stop) := d.marked
  let all := SourceLine.ofSource d.source.toList
  let first := Place.first all start
  let last := if stop = start then first else Place.last all first stop
  let gutter := (digits last.line.number).length
  let rows :=
    if first.line.number = last.line.number then underlined first last d.label.toList
    else barredRows all first last d.label.toList
  title d ++
    [blanks gutter ++ "--> ".toList ++ d.path.toList ++ ':' :: digits first.line.number ++
      ':' :: digits (first.characters + 1)] ++
    (Row.mark [] :: rows).map (Row.text gutter) ++ noteLines gutter d.notes

def text (d : Diagnostic) : String := "\n".intercalate (d.lines.map String.ofList)

end Diagnostic

end Stencil
