import Stencil.Numbers

/-!
# Blanks

The characters that count as white space, and cutting text along them. Offsets
into text count UTF-8 bytes, so the byte length of a text is here too.
-/

set_option autoImplicit false

namespace Stencil.Text

def isBlank (c : Char) : Bool :=
  let n := c.toNat
  (0x09 ≤ n && n ≤ 0x0D) || n == 0x20 || n == 0x85 || n == 0xA0 || n == 0x1680 ||
    (0x2000 ≤ n && n ≤ 0x200A) || n == 0x2028 || n == 0x2029 || n == 0x202F ||
    n == 0x205F || n == 0x3000

def byteLength (s : List Char) : Nat := (s.map Char.utf8Size).sum

theorem byteLength_nil : byteLength [] = 0 := rfl

theorem byteLength_cons (c : Char) (s : List Char) :
    byteLength (c :: s) = c.utf8Size + byteLength s := by simp [byteLength]

theorem byteLength_append (s t : List Char) :
    byteLength (s ++ t) = byteLength s + byteLength t := by simp [byteLength]

def dropBlanks (s : List Char) : List Char := s.dropWhile isBlank

def trim (s : List Char) : List Char := (dropBlanks (dropBlanks s).reverse).reverse

def trimmed (s : String) : String := String.ofList (trim s.toList)

theorem dropBlanks_length_le (s : List Char) : (dropBlanks s).length ≤ s.length :=
  (List.dropWhile_sublist _).length_le

theorem trim_length_le (s : List Char) : (trim s).length ≤ s.length := by
  have h := dropBlanks_length_le (dropBlanks s).reverse
  have k := dropBlanks_length_le s
  simp only [trim, List.length_reverse] at h ⊢
  omega

def cutAt (p : Char → Bool) : List Char → List (List Char)
  | [] => [[]]
  | c :: r =>
    if p c then [] :: cutAt p r
    else match cutAt p r with
      | [] => [[c]]
      | w :: ws => (c :: w) :: ws

def words (s : List Char) : List (List Char) := (cutAt isBlank s).filter (· ≠ [])

def after? : (w s : List Char) → Option (List Char)
  | [], s => some s
  | _ :: _, [] => none
  | a :: w, c :: s => if a = c then after? w s else none

theorem after?_eq_some {w s r : List Char} : after? w s = some r ↔ s = w ++ r := by
  induction w generalizing s with
  | nil => simp [after?, eq_comm]
  | cons a w ih =>
    cases s with
    | nil => simp [after?]
    | cons c s =>
      by_cases h : a = c
      · simp [after?, h, ih]
      · simp [after?, h, eq_comm]

def splitBytes : (n : Nat) → List Char → Option (List Char × List Char)
  | 0, s => some ([], s)
  | _ + 1, [] => none
  | n + 1, c :: r =>
    if c.utf8Size ≤ n + 1 then
      (splitBytes (n + 1 - c.utf8Size) r).map fun (a, b) => (c :: a, b)
    else none

def bytesBetween (start stop : Nat) (s : List Char) : Option (List Char) := do
  let (_, r) ← splitBytes start s
  let (m, _) ← splitBytes (stop - start) r
  pure m

end Stencil.Text
