import Stencil.Decimal.Binary

/-!
# The fewest digits that read back

The shortest decimal among those that round to a given double, and of two that
are equally short the nearer one. Of two that are also equally near a `Tie`
picks. The interval of numbers that round to
`m * 2 ^ q` includes its ends when `m` is even.
-/

set_option autoImplicit false

namespace Stencil.Decimal

def compareScaled (a : Nat) (k : Int) (b : Nat) (e : Int) : Ordering :=
  compare (a * 10 ^ k.toNat * 2 ^ (-e).toNat) (b * 2 ^ e.toNat * 10 ^ (-k).toNat)

def readsBack (m : Nat) (q : Int) (d : Nat) (k : Int) : Bool :=
  let low := 4 * m - (if m = 2 ^ 52 ∧ q ≠ -1074 then 1 else 2)
  let high := 4 * m + 2
  let even := m % 2 = 0
  (match compareScaled d k low (q - 2) with
    | .lt => false | .eq => even | .gt => true) &&
  (match compareScaled d k high (q - 2) with
    | .lt => true | .eq => even | .gt => false)

def floorAt (m : Nat) (q k : Int) : Nat :=
  (m * 2 ^ q.toNat * 10 ^ (-k).toNat) / (2 ^ (-q).toNat * 10 ^ k.toNat)

inductive Tie
  | toEven
  | up
deriving DecidableEq, Repr

/-- Whether `m * 2 ^ q` goes to `d * 10 ^ k` and not to the next point of that grid. -/
def goesDown (tie : Tie) (m : Nat) (q : Int) (d : Nat) (k : Int) : Bool :=
  match compareScaled (2 * d + 1) k (2 * m) q with
  | .gt => true
  | .eq => tie == .toEven && d % 2 == 0
  | .lt => false

def onGrid (tie : Tie) (m : Nat) (q k : Int) : Option (Nat × Int) :=
  let d := floorAt m q k
  match readsBack m q d k, readsBack m q (d + 1) k with
  | true, true => some (if goesDown tie m q d k then (d, k) else (d + 1, k))
  | true, false => some (d, k)
  | false, true => some (d + 1, k)
  | false, false => none

def decimals (n : Nat) : List Char := Nat.toDigits 10 n

def magnitude (m : Nat) (q : Int) : Int := (decimals (floorAt m q (-400))).length - 400

structure Digits where
  digits : List Char
  point : Int
deriving DecidableEq, Repr

def shortest (tie : Tie) (m : Nat) (q : Int) : Digits :=
  let p := magnitude m q
  let hit := (List.range 17).findSome? fun (n : Nat) => onGrid tie m q (p - (n + 1))
  let (d, k) := hit.getD (floorAt m q (p - 17), p - 17)
  let ds := decimals d
  ⟨(ds.reverse.dropWhile (· == '0')).reverse, ds.length + k⟩

end Stencil.Decimal
