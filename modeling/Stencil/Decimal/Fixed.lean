import Stencil.Decimal.Style

/-!
# Fixed places

Decimals with a given number of places: the exact binary value, rounded to the
nearest, ties to the even digit.
-/

set_option autoImplicit false

namespace Stencil.Decimal

def fixedUnits (m : Nat) (q : Int) (places : Nat) : Nat :=
  roundDiv (m * 2 ^ q.toNat * 10 ^ places) (2 ^ (-q).toNat)

def padded (n d : Nat) : List Char :=
  let ds := decimals d
  List.replicate (n - ds.length) '0' ++ ds

def fixed (m : Nat) (q : Int) (places : Nat) : List Char × List Char :=
  let ds := padded (places + 1) (fixedUnits m q places)
  (ds.take (ds.length - places), ds.drop (ds.length - places))

def grouped : List Char → List Char
  | [] => []
  | c :: r => if r.length % 3 = 0 ∧ r ≠ [] then c :: ',' :: grouped r else c :: grouped r

/-- Fixed places with grouped thousands. An amount that rounds to zero has no sign. -/
def amount (f : Float) (places : Nat) : List Char :=
  match Binary.ofFloat f with
  | .finite negative m q =>
    let (whole, fraction) := fixed m q places
    let sign := if negative && (whole ++ fraction).any (· != '0') then ['-'] else []
    sign ++ grouped whole ++ if places = 0 then [] else '.' :: fraction
  | b => Style.shown.write b

end Stencil.Decimal
