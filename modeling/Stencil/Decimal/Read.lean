import Stencil.Decimal.Binary

/-!
# Reading numbers

Whole numbers take an optional sign and digits, leading zeros included. Floats
also take a decimal point, an exponent and the names of infinity and of the
undefined number in any case. The nearest double is read.
-/

set_option autoImplicit false

namespace Stencil.Decimal

def digitValue (c : Char) : Nat := c.toNat - '0'.toNat

def ofDigits (ds : List Char) : Nat := ds.foldl (fun n c => 10 * n + digitValue c) 0

def readNat? (ds : List Char) : Option Nat :=
  if ds.isEmpty || !ds.all Char.isDigit then none else some (ofDigits ds)

def readSign : List Char → Bool × List Char
  | '-' :: r => (true, r)
  | '+' :: r => (false, r)
  | s => (false, s)

def readInt? (s : List Char) : Option Int := do
  let (negative, ds) := readSign s
  let n ← readNat? ds
  let i : Int := if negative then -n else n
  if -(2 ^ 63) ≤ i ∧ i < 2 ^ 63 then some i else none

def readIndex? (s : List Char) : Option Nat := do
  let n ← readNat? (match s with | '+' :: r => r | _ => s)
  if n < 2 ^ 64 then some n else none

/-- The double nearest to `n * 10 ^ e`. Beyond the range of doubles the power of
ten is not computed. -/
def ofScientific (negative : Bool) (n : Nat) (e : Int) : Float :=
  let size := (Nat.toDigits 10 n).length + e
  if n = 0 ∨ size < -400 then ofQuotient negative 0 1
  else if 400 < size then ofQuotient negative (2 ^ 1024) 1
  else if 0 ≤ e then ofQuotient negative (n * 10 ^ e.toNat) 1
  else ofQuotient negative n (10 ^ (-e).toNat)

def readExponent? : List Char → Option Int
  | [] => some 0
  | c :: r =>
    if c = 'e' ∨ c = 'E' then
      let (negative, ds) := readSign r
      (readNat? ds).map fun n => if negative then -(n : Int) else n
    else none

def readUnsigned? (negative : Bool) (s : List Char) : Option Float := do
  let whole := s.takeWhile Char.isDigit
  let (fraction, r) := match s.dropWhile Char.isDigit with
    | '.' :: r => (r.takeWhile Char.isDigit, r.dropWhile Char.isDigit)
    | r => ([], r)
  if (whole ++ fraction).isEmpty then none
  else
    let e ← readExponent? r
    some (ofScientific negative (ofDigits (whole ++ fraction)) (e - fraction.length))

def readFloat? (s : List Char) : Option Float :=
  let (negative, r) := readSign s
  let name := String.ofList (r.map Char.toLower)
  if name = "inf" ∨ name = "infinity" then some (ofQuotient negative (2 ^ 1024) 1)
  else if name = "nan" then some (Float.ofBits 0x7FF8000000000000)
  else readUnsigned? negative r

end Stencil.Decimal
