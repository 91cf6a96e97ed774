import Stencil.Decimal.Shortest

/-!
# Float text

How shortest digits are laid out. A style says from which to which exponent of
scientific notation a number is written out, and how the rest of it looks.
-/

set_option autoImplicit false

namespace Stencil.Decimal

structure Style where
  /-- The exponents written positionally; without bounds all of them are. -/
  exponents : Option (Int × Int)
  /-- Whole numbers keep `.0`. -/
  keepsPoint : Bool
  /-- Exponents from zero on have a plus sign. -/
  plusSign : Bool
  nan : String
  infinity : String
  minusInfinity : String
  /-- Zero loses its sign. -/
  plainZero : Bool
  tie : Tie

namespace Style

def shown : Style := ⟨none, false, false, "NaN", "Infinity", "-Infinity", true, .up⟩

def bare : Style := ⟨none, false, false, "NaN", "inf", "-inf", false, .up⟩

def json : Style := ⟨some (-5, 15), true, true, "null", "null", "null", false, .toEven⟩

def inspected : Style := ⟨some (-4, 15), true, false, "NaN", "inf", "-inf", false, .up⟩

end Style

def positional (keepsPoint : Bool) (d : Digits) : List Char :=
  let n := d.point.toNat
  let whole := if d.point ≤ 0 then ['0']
    else d.digits.take n ++ List.replicate (n - d.digits.length) '0'
  let rest := List.replicate (-d.point).toNat '0' ++ d.digits.drop n
  if rest.isEmpty then if keepsPoint then whole ++ ['.', '0'] else whole
  else whole ++ '.' :: rest

def exponential (plusSign : Bool) (d : Digits) : List Char :=
  let e := d.point - 1
  let sign := if e < 0 then ['-'] else if plusSign then ['+'] else []
  let head := match d.digits with
    | [] => []
    | [c] => [c]
    | c :: r => c :: '.' :: r
  head ++ 'e' :: (sign ++ decimals e.natAbs)

def Style.digits (s : Style) (d : Digits) : List Char :=
  match s.exponents with
  | none => positional s.keepsPoint d
  | some (low, high) =>
    if low ≤ d.point - 1 ∧ d.point - 1 ≤ high then positional s.keepsPoint d
    else exponential s.plusSign d

def Style.write (s : Style) : Binary → List Char
  | .nan => s.nan.toList
  | .infinite negative => (if negative then s.minusInfinity else s.infinity).toList
  | .finite negative m q =>
    let sign := if negative && !(m == 0 && s.plainZero) then ['-'] else []
    sign ++ if m = 0 then positional s.keepsPoint ⟨['0'], 1⟩ else s.digits (shortest s.tie m q)

def Style.text (s : Style) (f : Float) : String := String.ofList (s.write (.ofFloat f))

end Stencil.Decimal
