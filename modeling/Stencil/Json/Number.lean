import Stencil.Decimal.Read
import Stencil.Json.Basic

/-!
# JSON numbers

A number without fraction and exponent is whole, if it fits 64 bits with or
without sign; zero with a minus sign is a float. A float is read as the digits
that fit 64 bits, scaled once by a power of ten in double arithmetic.
-/

set_option autoImplicit false

namespace Stencil.Json

open Decimal

structure Scaled where
  digits : Nat
  exponent : Int

def fits (n : Nat) (c : Char) : Bool := 10 * n + digitValue c < 2 ^ 64

def takeWhole : (full : Bool) → Scaled → List Char → Scaled
  | _, s, [] => s
  | full, s, c :: r =>
    if full || !fits s.digits c then takeWhole true { s with exponent := s.exponent + 1 } r
    else takeWhole false { s with digits := 10 * s.digits + digitValue c } r

def takeFraction : Scaled → List Char → Scaled
  | s, [] => s
  | s, c :: r =>
    if fits s.digits c then takeFraction ⟨10 * s.digits + digitValue c, s.exponent - 1⟩ r else s

def tenTo (n : Nat) : Float := ofScientific false 1 n

def scale (f : Float) (e : Int) : (fuel : Nat) → Option Float
  | 0 => some f
  | fuel + 1 =>
    if e.natAbs ≤ 308 then
      if 0 ≤ e then
        let g := f * tenTo e.natAbs
        if g.isInf then none else some g
      else some (f / tenTo e.natAbs)
    else if f == 0 then some f
    else if 0 ≤ e then none
    else scale (f / tenTo 308) (e + 308) fuel

/-- The float of some digits; none beyond the largest double. Sixteen divisions
take any significand to zero. -/
def Scaled.toFloat? (s : Scaled) : Option Float := scale (ofInt s.digits) s.exponent 16

def signed (negative : Bool) (f : Float) : Float := if negative then -f else f

def readExponent? (s : List Char) : Option (Bool × List Char × List Char) :=
  match s with
  | c :: r =>
    if c = 'e' ∨ c = 'E' then
      let (negative, r) := readSign r
      let ds := r.takeWhile Char.isDigit
      if ds.isEmpty then none else some (negative, ds, r.dropWhile Char.isDigit)
    else none
  | [] => none

def startsExponent : List Char → Bool
  | c :: _ => c == 'e' || c == 'E'
  | [] => false

def finishFloat? (negative : Bool) (s : Scaled) (r : List Char) : Option (Json × List Char) :=
  if startsExponent r then do
    let (down, ds, r) ← readExponent? r
    let n := ofDigits ds
    if 2 ^ 31 ≤ n then
      if s.digits ≠ 0 ∧ !down then none else some (.float (signed negative 0), r)
    else
      let f ← (Scaled.mk s.digits (if down then s.exponent - n else s.exponent + n)).toFloat?
      some (.float (signed negative f), r)
  else do
    let f ← s.toFloat?
    some (.float (signed negative f), r)

def wholeJson (negative : Bool) (n : Nat) : Json :=
  if negative then
    if 0 < n ∧ n ≤ 2 ^ 63 then .int (-n) else .float (-(ofInt n))
  else .int n

def readNumber? (s : List Char) : Option (Json × List Char) := do
  let (negative, r) := match s with
    | '-' :: r => (true, r)
    | s => (false, s)
  let whole := r.takeWhile Char.isDigit
  let r := r.dropWhile Char.isDigit
  if whole.isEmpty || (whole.head? == some '0' && whole.length != 1) then none
  else
    let taken := takeWhole false ⟨0, 0⟩ whole
    match r with
    | '.' :: r =>
      let fraction := r.takeWhile Char.isDigit
      if fraction.isEmpty then none
      else finishFloat? negative (takeFraction taken fraction) (r.dropWhile Char.isDigit)
    | r =>
      if startsExponent r then finishFloat? negative taken r
      else if taken.exponent = 0 then some (wholeJson negative taken.digits, r)
      else finishFloat? negative taken r

end Stencil.Json
