import Stencil.Decimal.Read
import Stencil.Toml.Basic

/-!
# Bare TOML values

Truth values, numbers, dates and times: everything that is written without
quotes or brackets.
-/

set_option autoImplicit false

namespace Stencil.Toml

open Decimal

def takeDigits? (isDigit : Char → Bool) (s : List Char) : Option (List Char) :=
  let rec go : (after : Bool) → List Char → Option (List Char)
    | after, [] => if after then some [] else none
    | after, '_' :: r => if after then go false r else none
    | _, c :: r => if isDigit c then (go true r).map (c :: ·) else none
  go false s

def isHexDigit (c : Char) : Bool := c.isDigit || ('a' ≤ c && c ≤ 'f') || ('A' ≤ c && c ≤ 'F')

def isOctalDigit (c : Char) : Bool := '0' ≤ c && c ≤ '7'

def isBinaryDigit (c : Char) : Bool := c == '0' || c == '1'

def hexDigit (c : Char) : Nat :=
  if c.isDigit then digitValue c else c.toLower.toNat - 'a'.toNat + 10

def inBase (base : Nat) (ds : List Char) : Nat := ds.foldl (fun n c => base * n + hexDigit c) 0

def fitsWord (i : Int) : Option Toml := if -(2 ^ 63) ≤ i ∧ i < 2 ^ 63 then some (int i) else none

def plainDigits? (s : List Char) : Option (List Char) := do
  let ds ← takeDigits? Char.isDigit s
  if ds.length = 1 ∨ ds.head? ≠ some '0' then some ds else none

def readInt? (s : List Char) : Option Toml :=
  match s with
  | '0' :: 'x' :: r => do fitsWord (inBase 16 (← takeDigits? isHexDigit r))
  | '0' :: 'o' :: r => do fitsWord (inBase 8 (← takeDigits? isOctalDigit r))
  | '0' :: 'b' :: r => do fitsWord (inBase 2 (← takeDigits? isBinaryDigit r))
  | s => do
    let (negative, r) := readSign s
    let n : Int := ofDigits (← plainDigits? r)
    fitsWord (if negative then -n else n)

def readExponentPart? (s : List Char) : Option Int := do
  let (negative, r) := readSign s
  let n : Int := ofDigits (← takeDigits? Char.isDigit r)
  some (if negative then -n else n)

def isExponentMark (c : Char) : Bool := c == 'e' || c == 'E'

def readFloat? (s : List Char) : Option Toml := do
  let (negative, r) := readSign s
  if r = "inf".toList then some (float (ofQuotient negative (2 ^ 1024) 1))
  else if r = "nan".toList then some (float (Float.ofBits 0x7FF8000000000000))
  else if !r.any fun c => c == '.' || isExponentMark c then none
  else
    let mantissa := r.takeWhile (!isExponentMark ·)
    let exponent ← match r.dropWhile (!isExponentMark ·) with
      | [] => some 0
      | _ :: t => readExponentPart? t
    let whole ← plainDigits? (mantissa.takeWhile (· != '.'))
    let fraction ← match mantissa.dropWhile (· != '.') with
      | [] => some []
      | _ :: t => takeDigits? Char.isDigit t
    some (float (ofScientific negative (ofDigits (whole ++ fraction))
      (exponent - fraction.length)))

def digitsBetween? (low high : Nat) (ds : List Char) : Option Nat :=
  if ds.all Char.isDigit then
    let n := ofDigits ds
    if low ≤ n ∧ n ≤ high then some n else none
  else none

def daysIn (year month : Nat) : Nat :=
  if month = 2 then if year % 4 = 0 ∧ (year % 100 ≠ 0 ∨ year % 400 = 0) then 29 else 28
  else if month = 4 ∨ month = 6 ∨ month = 9 ∨ month = 11 then 30
  else 31

def readDate? : List Char → Option (List Char × List Char)
  | a :: b :: c :: d :: '-' :: e :: f :: '-' :: g :: h :: r => do
    let year ← digitsBetween? 0 9999 [a, b, c, d]
    let month ← digitsBetween? 1 12 [e, f]
    let _ ← digitsBetween? 1 (daysIn year month) [g, h]
    some ([a, b, c, d, '-', e, f, '-', g, h], r)
  | _ => none

def readFraction? : List Char → Option (List Char × List Char)
  | '.' :: r =>
    let ds := r.takeWhile Char.isDigit
    if ds.isEmpty then none
    else
      let kept := ((ds.take 9).reverse.dropWhile (· == '0')).reverse
      some (if kept.isEmpty then [] else '.' :: kept, r.dropWhile Char.isDigit)
  | r => some ([], r)

def readTime? : List Char → Option (List Char × List Char)
  | a :: b :: ':' :: c :: d :: r => do
    let _ ← digitsBetween? 0 23 [a, b]
    let _ ← digitsBetween? 0 59 [c, d]
    match r with
    | ':' :: e :: f :: r => do
      let _ ← digitsBetween? 0 60 [e, f]
      let (fraction, r) ← readFraction? r
      some ([a, b, ':', c, d, ':', e, f] ++ fraction, r)
    | r => some ([a, b, ':', c, d], r)
  | _ => none

def readOffset? : List Char → Option (List Char)
  | [] => some []
  | ['Z'] | ['z'] => some ['Z']
  | [sign, a, b, ':', c, d] => do
    let _ ← digitsBetween? 0 23 [a, b]
    let _ ← digitsBetween? 0 59 [c, d]
    if sign = '+' ∨ sign = '-' then some [sign, a, b, ':', c, d] else none
  | _ => none

def readMoment? (s : List Char) : Option Toml :=
  match readDate? s with
  | none => do
    let (time, r) ← readTime? s
    if r.isEmpty then some (string (String.ofList time)) else none
  | some (date, []) => some (string (String.ofList date))
  | some (date, c :: r) => do
    if c = 'T' ∨ c = 't' ∨ c = ' ' then
      let (time, r) ← readTime? r
      let offset ← readOffset? r
      some (string (String.ofList (date ++ 'T' :: time ++ offset)))
    else none

def readBare? (s : List Char) : Option Toml :=
  if s = "true".toList then some (bool true)
  else if s = "false".toList then some (bool false)
  else ((readMoment? s).or (readInt? s)).or (readFloat? s)

end Stencil.Toml
