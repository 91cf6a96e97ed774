import Stencil.Text.Blank

/-!
# Patterns

What a scan over a source looks for. A pattern says how it matches at the start
of a text; taking consumes such a match, and scanning up to it consumes what
stands before the leftmost one.
-/

set_option autoImplicit false

namespace Stencil

open Text

structure Pattern where
  /-- The match at the start of a text and what follows it. -/
  here : List Char → Option (List Char × List Char)
  /-- Matches only where the scan stands. -/
  anchored : Bool := false

namespace Pattern

def blanksThen (w : List Char) : List Char → Option (List Char × List Char)
  | [] => (after? w []).map (w, ·)
  | c :: r =>
    ((if isBlank c then blanksThen w r else none).map fun (m, t) => (c :: m, t)).or
      ((after? w (c :: r)).map (w, ·))

def thenBlanks (w s : List Char) : Option (List Char × List Char) :=
  (after? w s).map fun r => (w ++ r.takeWhile isBlank, dropBlanks r)

def opening (w : List Char) : Pattern := { here := thenBlanks w }

def closing (w : List Char) : Pattern := { here := blanksThen w }

def equalSign : Pattern := { here := blanksThen ['='] }

def closingBrace : Pattern := { here := blanksThen ['\x7d'] }

def blanks : Pattern := { here := fun s => some (s.takeWhile isBlank, dropBlanks s) }

def run (p : Char → Bool) : Pattern where
  here s := if (s.takeWhile p).isEmpty then none else some (s.takeWhile p, s.dropWhile p)

def oneOf (p : Char → Bool) : Pattern where
  here
    | c :: r => if p c then some ([c], r) else none
    | [] => none

def never : Pattern := { here := fun _ => none }

def anchor (p : Pattern) : Pattern := { p with anchored := true }

def before (p : Pattern) : List Char → List Char × List Char
  | [] => ([], [])
  | c :: r =>
    if (p.here (c :: r)).isSome then ([], c :: r)
    else let (a, b) := before p r; (c :: a, b)

def take (p : Pattern) (s : List Char) : List Char × List Char := (p.here s).getD ([], s)

def upTo (p : Pattern) (s : List Char) : List Char × List Char :=
  if p.anchored then if (p.here s).isSome then ([], s) else (s, [])
  else p.before s

def Exact (p : Pattern) : Prop := ∀ {s m r : List Char}, p.here s = some (m, r) → s = m ++ r

theorem blanksThen_eq {w s m r : List Char} (h : blanksThen w s = some (m, r)) : s = m ++ r := by
  induction s generalizing m with
  | nil =>
    obtain ⟨t, ht, hm⟩ := Option.map_eq_some_iff.1 h
    cases hm
    exact after?_eq_some.1 ht
  | cons c s ih =>
    rw [blanksThen, Option.or_eq_some_iff] at h
    rcases h with h | ⟨-, h⟩
    · obtain ⟨⟨m', t⟩, hb, hm⟩ := Option.map_eq_some_iff.1 h
      cases hm
      split at hb
      · simp [ih hb]
      · simp at hb
    · obtain ⟨t, ht, hm⟩ := Option.map_eq_some_iff.1 h
      cases hm
      exact after?_eq_some.1 ht

theorem closing_exact (w : List Char) : (closing w).Exact := blanksThen_eq

theorem equalSign_exact : equalSign.Exact := blanksThen_eq

theorem closingBrace_exact : closingBrace.Exact := blanksThen_eq

theorem opening_exact (w : List Char) : (opening w).Exact := by
  intro s m r h
  simp only [opening, thenBlanks, Option.map_eq_some_iff, Prod.mk.injEq] at h
  obtain ⟨t, ht, rfl, rfl⟩ := h
  rw [after?_eq_some.1 ht, List.append_assoc, dropBlanks, List.takeWhile_append_dropWhile]

theorem oneOf_exact (p : Char → Bool) : (oneOf p).Exact := by
  intro s m r h
  cases s with
  | nil => simp [oneOf] at h
  | cons c s =>
    simp only [oneOf] at h
    split at h
    · cases h; rfl
    · simp at h

theorem before_append (p : Pattern) (s : List Char) : (p.before s).1 ++ (p.before s).2 = s := by
  induction s with
  | nil => rfl
  | cons c s ih =>
    simp only [before]
    split
    · rfl
    · simpa using ih

theorem upTo_append (p : Pattern) (s : List Char) : (p.upTo s).1 ++ (p.upTo s).2 = s := by
  simp only [upTo]
  split
  · split <;> simp
  · exact before_append p s

theorem take_append {p : Pattern} (h : p.Exact) (s : List Char) :
    (p.take s).1 ++ (p.take s).2 = s := by
  cases hs : p.here s with
  | none => simp [take, hs]
  | some m => simpa [take, hs] using (h hs).symm

end Pattern

end Stencil
