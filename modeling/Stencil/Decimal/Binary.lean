import Stencil.Numbers

/-!
# Floats as exact numbers

A double is a sign, a significand and a power of two. Taking one apart and
rounding an exact quotient to the nearest one are done on natural numbers.
-/

set_option autoImplicit false

namespace Stencil.Decimal

inductive Binary
  | nan
  | infinite (negative : Bool)
  /-- Plus or minus `m * 2 ^ q`. -/
  | finite (negative : Bool) (m : Nat) (q : Int)
deriving DecidableEq, Repr

namespace Binary

def ofBits (b : Nat) : Binary :=
  let negative := b / 2 ^ 63 % 2 == 1
  let exponent : Nat := b / 2 ^ 52 % 2 ^ 11
  let fraction := b % 2 ^ 52
  if exponent = 2 ^ 11 - 1 then if fraction = 0 then infinite negative else nan
  else if exponent = 0 then finite negative fraction (-1074)
  else finite negative (2 ^ 52 + fraction) ((exponent : Int) - 1075)

def ofFloat (f : Float) : Binary := ofBits f.toBits.toNat

end Binary

/-- The nearest natural number to `num / den`; a tie goes to the even neighbour. -/
def roundDiv (num den : Nat) : Nat :=
  let n := num / den
  let r := num % den
  if 2 * r < den then n
  else if 2 * r = den then n + n % 2
  else n + 1

def lastPlace (num den : Nat) : Int :=
  let l : Int := num.log2 - den.log2
  let reached := if 0 ≤ l then den * 2 ^ l.toNat ≤ num else den ≤ num * 2 ^ (-l).toNat
  max (if reached then l - 52 else l - 53) (-1074)

def bitsOfQuotient (num den : Nat) : Nat :=
  if num = 0 then 0
  else
    let q := lastPlace num den
    let m := if 0 ≤ q then roundDiv num (den * 2 ^ q.toNat)
      else roundDiv (num * 2 ^ (-q).toNat) den
    min ((q + 1074).toNat * 2 ^ 52 + m) (2047 * 2 ^ 52)

def ofQuotient (negative : Bool) (num den : Nat) : Float :=
  Float.ofBits (UInt64.ofNat ((if negative then 2 ^ 63 else 0) + bitsOfQuotient num den))

def ofInt (i : Int) : Float := ofQuotient (decide (i < 0)) i.natAbs 1

def truncate : Binary → Option Int
  | .finite negative m q =>
    let n := if 0 ≤ q then m * 2 ^ q.toNat else m / 2 ^ (-q).toNat
    some (max (-(2 ^ 63)) (min (2 ^ 63 - 1) (if negative then -(n : Int) else n)))
  | _ => none

end Stencil.Decimal
