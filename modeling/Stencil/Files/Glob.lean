/-!
# Globs

Patterns for file paths. Wildcards stand for bytes other than the slash; two
stars in a part of their own stand for any number of directories. A pattern with
groups of alternatives is kept as the list of patterns without groups that it
stands for.
-/

set_option autoImplicit false

namespace Stencil

namespace Glob

inductive Atom
  | byte (b : UInt8)
  /-- One byte other than the slash. -/
  | any
  /-- Any bytes other than the slash. -/
  | star
  /-- A byte in one of some ranges, or in none of them. -/
  | oneOf (negated : Bool) (ranges : List (UInt8 × UInt8))
  /-- Directories in front of the rest. -/
  | deepStart
  /-- A slash, and directories between it and the rest. -/
  | deepMiddle
  /-- Everything inside a directory. -/
  | deepEnd
deriving DecidableEq, Repr

inductive Error
  | unclosedClass
  | invalidRange (first last : Char)
  | unopenedGroup
  | unclosedGroup
  | danglingEscape
deriving DecidableEq, Repr

def Error.message : Error → String
  | unclosedClass => "unclosed character class; missing ']'"
  | invalidRange a b =>
    "invalid range; '" ++ String.singleton a ++ "' > '" ++ String.singleton b ++ "'"
  | unopenedGroup =>
    "unopened alternate group; missing '\x7b' (maybe escape '\x7d' with '[\x7d]'?)"
  | unclosedGroup =>
    "unclosed alternate group; missing '\x7d' (maybe escape '\x7b' with '[\x7b]'?)"
  | danglingEscape => "dangling '\\'"

def slash : UInt8 := 0x2F

/-! ## Matching -/

def behindSlashes : List UInt8 → List (List UInt8)
  | [] => []
  | b :: r => if b = slash then r :: behindSlashes r else behindSlashes r

def withinPart : List UInt8 → List (List UInt8)
  | [] => [[]]
  | b :: r => (b :: r) :: if b = slash then [] else withinPart r

def suffixes : List UInt8 → List (List UInt8)
  | [] => [[]]
  | b :: r => (b :: r) :: suffixes r

def classHas (negated : Bool) (ranges : List (UInt8 × UInt8)) (b : UInt8) : Bool :=
  (ranges.any fun (l, h) => l ≤ b && b ≤ h) != negated

def fits : List Atom → List UInt8 → Bool
  | [], s => s.isEmpty
  | .byte b :: as, s =>
    match s with
    | c :: r => c == b && fits as r
    | [] => false
  | .any :: as, s =>
    match s with
    | c :: r => c != slash && fits as r
    | [] => false
  | .oneOf negated ranges :: as, s =>
    match s with
    | c :: r => classHas negated ranges c && fits as r
    | [] => false
  | .star :: as, s => (withinPart s).any (fits as)
  | .deepStart :: as, s => (s :: behindSlashes s).any (fits as)
  | .deepMiddle :: as, s =>
    match s with
    | c :: r => c == slash && (r :: behindSlashes r).any (fits as)
    | [] => false
  | .deepEnd :: as, s =>
    match s with
    | c :: r => c == slash && (suffixes r).any (fits as)
    | [] => false

/-! ## Reading -/

structure Branch where
  started : Bool := false
  alternatives : List (List Atom) := [[]]

namespace Branch

def push (b : Branch) (a : Atom) : Branch := ⟨true, b.alternatives.map (· ++ [a])⟩

def pushChar (b : Branch) (c : Char) : Branch :=
  ⟨true, b.alternatives.map (· ++ (String.utf8EncodeChar c).map Atom.byte)⟩

def lastAtom? (b : Branch) : Option Atom := b.alternatives.head?.bind List.getLast?

def replaceLast (b : Branch) (a : Atom) : Branch :=
  ⟨true, b.alternatives.map fun as => as.dropLast ++ [a]⟩

/-- With a group behind. A branch of the group that holds nothing does not count. -/
def pushGroup (b : Branch) (branches : List Branch) : Branch :=
  let choices := (branches.filter (·.alternatives ≠ [[]])).flatMap Branch.alternatives
  let choices := if choices.isEmpty then [[]] else choices
  ⟨true, b.alternatives.flatMap fun as => choices.map (as ++ ·)⟩

end Branch

/-- A pattern as far as it has been read: the branch at work, and for each open group,
the innermost first, the branch it stands in and its branches so far. -/
structure Draft where
  current : Branch := {}
  groups : List (Branch × List Branch) := []

namespace Draft

def push (d : Draft) (a : Atom) : Draft := { d with current := d.current.push a }

def pushChar (d : Draft) (c : Char) : Draft := { d with current := d.current.pushChar c }

def openGroup (d : Draft) : Draft := ⟨{}, (d.current, []) :: d.groups⟩

def closeGroup (d : Draft) : Except Error Draft :=
  match d.groups with
  | [] => .error .unopenedGroup
  | (outer, branches) :: gs => .ok ⟨outer.pushGroup (branches ++ [d.current]), gs⟩

def comma (d : Draft) : Draft :=
  match d.groups with
  | [] => d.pushChar ','
  | (outer, branches) :: gs => ⟨{}, (outer, branches ++ [d.current]) :: gs⟩

def deepen (d : Draft) (a : Atom) : Draft :=
  match d.current.lastAtom? with
  | some .deepStart | some .deepEnd => d
  | _ => { d with current := d.current.replaceLast a }

def star (d : Draft) (before : Option Char) : List Char → Nat × Draft
  | '*' :: rest =>
    let two := (d.push .star).push .star
    if !d.current.started then
      match rest with
      | [] => (1, d.push .deepStart)
      | '/' :: _ => (2, d.push .deepStart)
      | _ => (1, two)
    else if before != some '/' &&
        (d.groups.isEmpty || (before != some ',' && before != some '\x7b')) then
      (1, two)
    else
      match rest with
      | [] => (1, d.deepen .deepEnd)
      | '/' :: _ => (2, d.deepen .deepMiddle)
      | c :: _ =>
        if !d.groups.isEmpty && (c = ',' || c = '\x7d') then (1, d.deepen .deepEnd) else (1, two)
  | _ => (0, d.push .star)

end Draft

structure ClassDraft where
  ranges : List (Char × Char) := []
  inRange : Bool := false

def ClassDraft.push (d : ClassDraft) (c : Char) : Except Error ClassDraft :=
  if d.inRange then
    match d.ranges.getLast? with
    | some (a, _) =>
      if c < a then .error (.invalidRange a c) else .ok ⟨d.ranges.dropLast ++ [(a, c)], false⟩
    | none => .ok ⟨[(c, c)], false⟩
  else .ok ⟨d.ranges ++ [(c, c)], false⟩

/-- Reads a class up to its bracket, which may also be its first character; its ranges
and how many characters it has. Nothing if it is not closed. -/
def classBody (first : Bool) (n : Nat) :
    List Char → ClassDraft → Except Error (Option (List (Char × Char) × Nat))
  | [], _ => .ok none
  | c :: r, d =>
    if c = ']' && !first then
      .ok (some (if d.inRange then d.ranges ++ [('-', '-')] else d.ranges, n + 1))
    else if c = '-' && !first && !d.inRange then
      classBody false (n + 1) r { d with inRange := true }
    else do classBody false (n + 1) r (← d.push c)

def byteRanges (r : Char × Char) : List (UInt8 × UInt8) :=
  let first := String.utf8EncodeChar r.1
  let last := String.utf8EncodeChar r.2
  if r.1 = r.2 then first.map fun b => (b, b)
  else
    first.dropLast.map (fun b => (b, b)) ++
      (first.getLast?.bind fun l => last.head?.map fun h => (l, h)).toList ++
      (last.drop 1).map fun b => (b, b)

def charClass (s : List Char) : Except Error (Option (Atom × Nat)) := do
  let negated := s.head? == some '!' || s.head? == some '^'
  let skip := if negated then 1 else 0
  match ← classBody true 0 (s.drop skip) {} with
  | none => return none
  | some (ranges, n) => return some (.oneOf negated (ranges.flatMap byteRanges), n + skip)

/-- Reads a pattern. With `loose` the bracket of a class that is not closed stands for
itself, and so do the brackets behind it. -/
def readFrom (loose : Bool) (before : Option Char) (brackets : Bool) :
    List Char → Draft → Except Error Draft
  | [], d => .ok d
  | '?' :: r, d => readFrom loose (some '?') brackets r (d.push .any)
  | '*' :: r, d =>
    let (n, d) := d.star before r
    readFrom loose ((r.take n).getLast?.getD '*') brackets (r.drop n) d
  | '\x7b' :: r, d => readFrom loose (some '\x7b') brackets r d.openGroup
  | '\x7d' :: r, d => do readFrom loose (some '\x7d') brackets r (← d.closeGroup)
  | ',' :: r, d => readFrom loose (some ',') brackets r d.comma
  | '\\' :: r, d =>
    match r with
    | [] => .error .danglingEscape
    | c :: r => readFrom loose (some c) brackets r (d.pushChar c)
  | c :: r, d =>
    if c = '[' && brackets then
      match charClass r with
      | .error e => .error e
      | .ok (some (a, n)) => readFrom loose (some ']') brackets (r.drop n) (d.push a)
      | .ok none =>
        if loose then readFrom loose (some '[') false r (d.pushChar '[')
        else .error .unclosedClass
    else readFrom loose (some c) brackets r (d.pushChar c)
termination_by s => s.length
decreasing_by all_goals simp; try omega

end Glob

structure Glob where
  alternatives : List (List Glob.Atom)
deriving DecidableEq, Repr

namespace Glob

def read (loose : Bool) (s : List Char) : Except Error Glob :=
  match readFrom loose none true s {} with
  | .error e => .error e
  | .ok d => if d.groups.isEmpty then .ok ⟨d.current.alternatives⟩ else .error .unclosedGroup

def accepts (g : Glob) (path : List UInt8) : Bool :=
  g.alternatives == [[.deepStart]] || g.alternatives.any (fits · path)

end Glob

end Stencil
