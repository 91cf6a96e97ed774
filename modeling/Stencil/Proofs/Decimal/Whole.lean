import Stencil.Decimal.Read

/-!
# Whole numbers, written and read

The digits of a number read back to it, and a whole number of 64 bits reads back from
its text, sign included.
-/

set_option autoImplicit false

namespace Stencil.Decimal

theorem ofDigits_toDigits (n : Nat) : ofDigits (Nat.toDigits 10 n) = n := by
  calc ofDigits (Nat.toDigits 10 n) = Nat.ofDigitChars 10 (Nat.toDigits 10 n) 0 := by
        rw [Nat.ofDigitChars_eq_foldl]
        rfl
    _ = n := Nat.ofDigitChars_ten_toDigits

theorem readNat_toDigits (n : Nat) : readNat? (Nat.toDigits 10 n) = some n := by
  have hall : (Nat.toDigits 10 n).all Char.isDigit = true :=
    List.all_eq_true.2 fun c hc => Nat.isDigit_of_mem_toDigits (by decide) (by decide) hc
  have hne : (Nat.toDigits 10 n).isEmpty = false := by
    rw [List.isEmpty_eq_false_iff]
    exact Nat.toDigits_ne_nil
  rw [readNat?, hall, hne, ofDigits_toDigits]
  rfl

/-- What a number is written with in front: a minus sign or a digit, never a plus sign. -/
theorem toDigits_cons (n : Nat) : ∃ c r, Nat.toDigits 10 n = c :: r ∧ c.isDigit = true := by
  obtain ⟨c, r, hcr⟩ := List.exists_cons_of_ne_nil (Nat.toDigits_ne_nil (n := n) (b := 10))
  refine ⟨c, r, hcr, Nat.isDigit_of_mem_toDigits (b := 10) (n := n) (by decide) (by decide) ?_⟩
  rw [hcr]
  exact List.mem_cons_self

theorem readSign_digits {c : Char} (hc : c.isDigit = true) (r : List Char) :
    readSign (c :: r) = (false, c :: r) := by
  unfold readSign
  split
  · next h => cases h; cases hc
  · next h => cases h; cases hc
  · rfl

theorem toList_natural {i : Int} (hi : 0 ≤ i) :
    (toString i).toList = Nat.toDigits 10 i.natAbs := by
  cases i with
  | ofNat n =>
    show (Nat.repr n).toList = _
    rw [Nat.toList_repr]
    rfl
  | negSucc n => exact absurd hi (Int.not_le.2 (Int.negSucc_lt_zero n))

theorem toList_negative {i : Int} (hi : i < 0) :
    (toString i).toList = '-' :: Nat.toDigits 10 i.natAbs := by
  cases i with
  | ofNat n => exact absurd hi (Int.not_lt.2 (Int.natCast_nonneg n))
  | negSucc n =>
    show ("-" ++ Nat.repr (n + 1)).toList = _
    rw [String.toList_append, Nat.toList_repr]
    rfl

theorem readInt_of_sign {s ds : List Char} {negative : Bool} {n : Nat} {i : Int}
    (hs : readSign s = (negative, ds)) (hn : readNat? ds = some n)
    (hv : (if negative then -(n : Int) else n) = i) (hi : -(2 ^ 63) ≤ i ∧ i < 2 ^ 63) :
    readInt? s = some i := by
  subst hv
  rw [readInt?, hs]
  show (readNat? ds).bind _ = _
  rw [hn]
  exact if_pos hi

theorem readInt_toString {i : Int} (hi : -(2 ^ 63) ≤ i ∧ i < 2 ^ 63) :
    readInt? (toString i).toList = some i := by
  by_cases hneg : i < 0
  · have habs : -(i.natAbs : Int) = i := by
      rw [Int.ofNat_natAbs_of_nonpos (Int.le_of_lt hneg), Int.neg_neg]
    have hsign : readSign ('-' :: Nat.toDigits 10 i.natAbs) = (true, Nat.toDigits 10 i.natAbs) :=
      rfl
    rw [toList_negative hneg]
    exact readInt_of_sign hsign (readNat_toDigits _) habs hi
  · have hpos : 0 ≤ i := Int.not_lt.1 hneg
    obtain ⟨c, r, hcr, hc⟩ := toDigits_cons i.natAbs
    have hsign : readSign (Nat.toDigits 10 i.natAbs) = (false, Nat.toDigits 10 i.natAbs) := by
      rw [hcr]
      exact readSign_digits hc r
    rw [toList_natural hpos]
    exact readInt_of_sign hsign (readNat_toDigits _) (Int.natAbs_of_nonneg hpos) hi

end Stencil.Decimal
