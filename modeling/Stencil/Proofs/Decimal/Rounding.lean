import Stencil.Decimal.Fixed
import Stencil.Proofs.Decimal.Double

/-!
# Whole numbers as doubles

A whole number becomes the double nearest to it: rounded to 53 binary digits, where it
has more, and of two that are as near to the even one. So whole numbers below `2 ^ 53`
stay what they are, and only larger ones can come together in one double.
-/

set_option autoImplicit false

namespace Stencil.Decimal

theorem roundDiv_mul (n : Nat) {den : Nat} (hd : 0 < den) : roundDiv (n * den) den = n := by
  rw [roundDiv, Nat.mul_mod_left, Nat.mul_div_cancel n hd]
  exact if_pos (by omega)

theorem roundDiv_one (n : Nat) : roundDiv n 1 = n := by
  have h := roundDiv_mul n Nat.one_pos
  rwa [Nat.mul_one] at h

/-- Rounding goes to one of two neighbours, down only from the lower half and up only
from the upper one. -/
theorem roundDiv_cases (num den : Nat) :
    roundDiv num den = num / den ∧ 2 * (num % den) ≤ den ∨
      roundDiv num den = num / den + 1 ∧ den ≤ 2 * (num % den) := by
  unfold roundDiv
  dsimp only
  split_ifs <;> omega

theorem le_roundDiv {a num den : Nat} (hd : 0 < den) (h : a * den ≤ num) :
    a ≤ roundDiv num den := by
  have hle : a ≤ num / den := (Nat.le_div_iff_mul_le hd).2 h
  rcases roundDiv_cases num den with ⟨hr, -⟩ | ⟨hr, -⟩ <;> omega

theorem roundDiv_le {a num den : Nat} (hd : 0 < den) (h : num ≤ a * den) :
    roundDiv num den ≤ a := by
  rcases Nat.eq_or_lt_of_le h with rfl | hlt
  · exact (roundDiv_mul a hd).le
  · have hdiv : num / den < a := (Nat.div_lt_iff_lt_mul hd).2 hlt
    rcases roundDiv_cases num den with ⟨hr, -⟩ | ⟨hr, -⟩ <;> omega

theorem roundDiv_nearest (num a : Nat) {den : Nat} (hd : 0 < den) :
    ((num : Int) - (roundDiv num den * den : Nat)).natAbs ≤
      ((num : Int) - (a * den : Nat)).natAbs := by
  have hdiv : num / den * den + num % den = num := Nat.div_add_mod' num den
  have hmod := Nat.mod_lt num hd
  have hnext : (num / den + 1) * den = num / den * den + den := Nat.succ_mul ..
  rcases Nat.lt_or_ge (num / den) a with ha | ha
  · have hmul : (num / den + 1) * den ≤ a * den := Nat.mul_le_mul_right den ha
    rcases roundDiv_cases num den with ⟨hr, hhalf⟩ | ⟨hr, hhalf⟩ <;> rw [hr] <;> omega
  · have hmul : a * den ≤ num / den * den := Nat.mul_le_mul_right den ha
    rcases roundDiv_cases num den with ⟨hr, hhalf⟩ | ⟨hr, hhalf⟩ <;> rw [hr] <;> omega

/-! ## Whole numbers of 53 binary digits -/

def IsWhole (m : Nat) (q : Int) (n : Nat) : Prop := m * 2 ^ q.toNat = n * 2 ^ (-q).toNat

theorem IsWhole.unique {m n k : Nat} {q : Int} (hn : IsWhole m q n) (hk : IsWhole m q k) :
    n = k :=
  Nat.eq_of_mul_eq_mul_right (Nat.two_pow_pos _) (hn.symm.trans hk)

theorem IsWhole.carry {m n : Nat} {q : Int} (h : IsWhole (m * 2) q n) : IsWhole m (q + 1) n := by
  rw [IsWhole] at h ⊢
  rcases lt_or_ge q 0 with hq | hq
  · obtain ⟨k, hk⟩ : ∃ k, (-q).toNat = k + 1 := ⟨(-q).toNat - 1, by omega⟩
    have hz : q.toNat = 0 ∧ (q + 1).toNat = 0 ∧ (-(q + 1)).toNat = k := by omega
    rw [hz.1, hk, Nat.pow_zero, Nat.mul_one, Nat.pow_succ, ← Nat.mul_assoc] at h
    rw [hz.2.1, hz.2.2, Nat.pow_zero, Nat.mul_one]
    omega
  · have hz : (q + 1).toNat = q.toNat + 1 ∧ (-q).toNat = 0 ∧ (-(q + 1)).toNat = 0 := by omega
    rw [hz.2.1] at h
    rw [hz.1, hz.2.2, Nat.pow_succ, Nat.mul_comm (2 ^ q.toNat), ← Nat.mul_assoc, h]

theorem IsWhole.fixedUnits {m n : Nat} {q : Int} (h : IsWhole m q n) (places : Nat) :
    fixedUnits m q places = n * 10 ^ places := by
  rw [Decimal.fixedUnits, h, Nat.mul_right_comm]
  exact roundDiv_mul _ (Nat.two_pow_pos _)

theorem IsWhole.digits {m n : Nat} {q : Int} (h : IsWhole m q n) (hm : m < 2 ^ 53) :
    ∃ b k, b < 2 ^ 53 ∧ n = b * 2 ^ k := by
  rcases Int.le_total 0 q with hq | hq
  · have hz : (-q).toNat = 0 := by omega
    rw [IsWhole, hz, Nat.pow_zero, Nat.mul_one] at h
    exact ⟨m, q.toNat, hm, h.symm⟩
  · have hz : q.toNat = 0 := by omega
    rw [IsWhole, hz, Nat.pow_zero, Nat.mul_one] at h
    have hle : n ≤ n * 2 ^ (-q).toNat := Nat.le_mul_of_pos_right n (Nat.two_pow_pos _)
    exact ⟨n, 0, by omega, by rw [Nat.pow_zero, Nat.mul_one]⟩

/-- The nearest whole number of 53 binary digits and zeros behind them, of two the one
with the even last digit. -/
def nearestWhole (n : Nat) : Nat := roundDiv n (2 ^ (n.log2 - 52)) * 2 ^ (n.log2 - 52)

theorem nearestWhole_of_lt {n : Nat} (h : n < 2 ^ 53) : nearestWhole n = n := by
  have hlog : n.log2 - 52 = 0 := by
    rcases Nat.eq_zero_or_pos n with rfl | hn
    · rfl
    · have := (Nat.log2_lt hn.ne').2 h
      omega
  rw [nearestWhole, hlog, Nat.pow_zero, roundDiv_one, Nat.mul_one]

theorem nearestWhole_short {n : Nat} (h : n ≤ 2 ^ 53) : nearestWhole n = n := by
  rcases Nat.eq_or_lt_of_le h with rfl | hlt
  · decide +kernel
  · exact nearestWhole_of_lt hlt

/-- What a long number is rounded to has 53 binary digits, or is the least one of 54. -/
theorem significand_bounds {n : Nat} (h : 2 ^ 52 ≤ n) :
    2 ^ 52 ≤ roundDiv n (2 ^ (n.log2 - 52)) ∧ roundDiv n (2 ^ (n.log2 - 52)) ≤ 2 ^ 53 := by
  have hlog : 52 ≤ n.log2 := (Nat.le_log2 (by omega)).2 h
  have hlo : 2 ^ n.log2 ≤ n := Nat.log2_self_le (by omega)
  have hhi : n < 2 ^ (n.log2 + 1) := Nat.lt_log2_self
  have hpos : (0 : Nat) < 2 ^ (n.log2 - 52) := Nat.two_pow_pos _
  have hexp : (2 : Nat) ^ n.log2 = 2 ^ 52 * 2 ^ (n.log2 - 52) := by
    rw [← Nat.pow_add]
    congr 1
    omega
  rw [Nat.pow_succ, hexp] at hhi
  rw [hexp] at hlo
  exact ⟨le_roundDiv hpos hlo, roundDiv_le hpos (by omega)⟩

theorem le_nearestWhole {n : Nat} (h : 2 ^ 53 ≤ n) : 2 ^ 53 ≤ nearestWhole n := by
  have hlog : 53 ≤ n.log2 := (Nat.le_log2 (by omega)).2 h
  calc 2 ^ 53 = 2 ^ 52 * 2 ^ 1 := by rfl
    _ ≤ 2 ^ 52 * 2 ^ (n.log2 - 52) :=
      Nat.mul_le_mul_left _ (Nat.pow_le_pow_right (by decide) (by omega))
    _ ≤ nearestWhole n := Nat.mul_le_mul_right _ (significand_bounds (by omega)).1

theorem nearestWhole_pos {n : Nat} (h : 0 < n) : 0 < nearestWhole n := by
  rcases Nat.lt_or_ge n (2 ^ 53) with hn | hn
  · rwa [nearestWhole_of_lt hn]
  · exact Nat.lt_of_lt_of_le (by decide) (le_nearestWhole hn)

theorem nearestWhole_inj {n k : Nat} (h : nearestWhole n = nearestWhole k) :
    n = k ∨ 2 ^ 53 ≤ n ∧ 2 ^ 53 ≤ k := by
  rcases Nat.lt_or_ge n (2 ^ 53) with hn | hn <;> rcases Nat.lt_or_ge k (2 ^ 53) with hk | hk
  · rw [nearestWhole_of_lt hn, nearestWhole_of_lt hk] at h
    exact .inl h
  · have hle := le_nearestWhole hk
    rw [nearestWhole_of_lt hn] at h
    omega
  · have hle := le_nearestWhole hn
    rw [nearestWhole_of_lt hk] at h
    omega
  · exact .inr ⟨hn, hk⟩

/-- No whole number of 53 binary digits and zeros behind them is nearer. -/
theorem nearestWhole_nearest (n : Nat) {b k : Nat} (hb : b < 2 ^ 53) :
    ((n : Int) - nearestWhole n).natAbs ≤ ((n : Int) - (b * 2 ^ k : Nat)).natAbs := by
  rcases Nat.lt_or_ge n (2 ^ 53) with hn | hn
  · rw [nearestWhole_of_lt hn]
    omega
  · have hlog : 53 ≤ n.log2 := (Nat.le_log2 (by omega)).2 hn
    have hpos : (0 : Nat) < 2 ^ (n.log2 - 52) := Nat.two_pow_pos _
    rcases Nat.lt_or_ge k (n.log2 - 52) with hk | hk
    · -- too small: the least number with as many digits as `n` lies between
      have hsmall : b * 2 ^ k ≤ 2 ^ 52 * 2 ^ (n.log2 - 52) := by
        calc b * 2 ^ k ≤ 2 ^ 53 * 2 ^ (n.log2 - 53) :=
              Nat.mul_le_mul hb.le (Nat.pow_le_pow_right (by decide) (by omega))
          _ = 2 ^ 52 * 2 ^ (n.log2 - 52) := by
              rw [← Nat.pow_add, ← Nat.pow_add]
              congr 1
              omega
      have hle : 2 ^ 52 * 2 ^ (n.log2 - 52) ≤ n := by
        rw [← Nat.pow_add]
        calc 2 ^ (52 + (n.log2 - 52)) = 2 ^ n.log2 := by congr 1; omega
          _ ≤ n := Nat.log2_self_le (by omega)
      have hnear := roundDiv_nearest n (2 ^ 52) hpos
      rw [nearestWhole]
      omega
    · -- a multiple of the last place
      obtain ⟨d, rfl⟩ := Nat.exists_eq_add_of_le hk
      rw [Nat.pow_add, Nat.mul_comm (2 ^ (n.log2 - 52)), ← Nat.mul_assoc]
      exact roundDiv_nearest n (b * 2 ^ d) hpos

/-! ## The double of a whole number -/

theorem lastPlace_whole {n : Nat} (hn : 0 < n) : lastPlace n 1 = (n.log2 : Int) - 52 := by
  have hle : 2 ^ n.log2 ≤ n := Nat.log2_self_le (by omega)
  have hone : Nat.log2 1 = 0 := rfl
  simp only [lastPlace, hone]
  simp [hle]
  omega

/-- Exponent and significand put together in bits. A significand of 54 digits carries
over into the exponent. -/
theorem ofBits_sum (negative : Bool) {e m : Nat} (he : e < 2045) (hlo : 2 ^ 52 ≤ m)
    (hhi : m ≤ 2 ^ 53) :
    Binary.ofBits ((if negative then 2 ^ 63 else 0) + (e * 2 ^ 52 + m)) =
      if m < 2 ^ 53 then .finite negative m ((e : Int) - 1074)
      else .finite negative (2 ^ 52) ((e : Int) - 1073) := by
  generalize hb : (if negative then 2 ^ 63 else 0) + (e * 2 ^ 52 + m) = b
  have hsign : (b / 2 ^ 63 % 2 == 1) = negative := by
    rw [← hb]
    cases negative <;> simp <;> omega
  have hrest : b % 2 ^ 63 = e * 2 ^ 52 + m := by
    rw [← hb]
    split_ifs <;> omega
  rw [Binary.ofBits, hsign]
  rcases Nat.lt_or_ge m (2 ^ 53) with h | h
  · have hexp : b / 2 ^ 52 % 2 ^ 11 = e + 1 := by omega
    have hfraction : b % 2 ^ 52 = m - 2 ^ 52 := by omega
    rw [hexp, hfraction, if_neg (by omega), if_neg (by omega), if_pos h,
      Nat.add_sub_cancel' hlo]
    congr 1
    omega
  · have hexp : b / 2 ^ 52 % 2 ^ 11 = e + 2 := by omega
    have hfraction : b % 2 ^ 52 = 0 := by omega
    rw [hexp, hfraction, if_neg (by omega), if_neg (by omega), if_neg (by omega)]
    congr 1
    omega

theorem shifted_bounds {n : Nat} (hn : 0 < n) (h : n < 2 ^ 52) :
    2 ^ 52 ≤ n * 2 ^ (52 - n.log2) ∧ n * 2 ^ (52 - n.log2) ≤ 2 ^ 53 := by
  have hlog : n.log2 < 52 := (Nat.log2_lt hn.ne').2 h
  have hlo : 2 ^ n.log2 ≤ n := Nat.log2_self_le (by omega)
  have hhi : n ≤ 2 ^ n.log2 * 2 := Nat.lt_log2_self.le
  have hexp : (2 : Nat) ^ n.log2 * 2 ^ (52 - n.log2) = 2 ^ 52 := by
    rw [← Nat.pow_add]
    congr 1
    omega
  have hlo' := Nat.mul_le_mul_right (2 ^ (52 - n.log2)) hlo
  have hhi' := Nat.mul_le_mul_right (2 ^ (52 - n.log2)) hhi
  rw [hexp] at hlo'
  rw [Nat.mul_right_comm, hexp] at hhi'
  exact ⟨hlo', hhi'⟩

theorem bitsOfQuotient_whole {n : Nat} (hn : 0 < n) (hlt : n < 2 ^ 64) :
    ∃ m, 2 ^ 52 ≤ m ∧ m ≤ 2 ^ 53 ∧ bitsOfQuotient n 1 = (n.log2 + 1022) * 2 ^ 52 + m ∧
      IsWhole m ((n.log2 : Int) - 52) (nearestWhole n) := by
  have hlog : n.log2 < 64 := (Nat.log2_lt hn.ne').2 hlt
  have hplace : ((n.log2 : Int) - 52 + 1074).toNat = n.log2 + 1022 := by omega
  rw [bitsOfQuotient, if_neg hn.ne', lastPlace_whole hn]
  dsimp only
  rw [hplace]
  rcases Nat.lt_or_ge n (2 ^ 52) with hlo | hlo
  · have hlog' : n.log2 < 52 := (Nat.log2_lt hn.ne').2 hlo
    have hdown : (-((n.log2 : Int) - 52)).toNat = 52 - n.log2 := by omega
    have hup : ((n.log2 : Int) - 52).toNat = 0 := by omega
    obtain ⟨hge, hle⟩ := shifted_bounds hn hlo
    rw [if_neg (by omega), hdown, roundDiv_one]
    refine ⟨_, hge, hle, Nat.min_eq_left (by omega), ?_⟩
    rw [IsWhole, hup, hdown, nearestWhole_of_lt (by omega), Nat.pow_zero, Nat.mul_one]
  · have hlog' : 52 ≤ n.log2 := (Nat.le_log2 (by omega)).2 hlo
    have hup : ((n.log2 : Int) - 52).toNat = n.log2 - 52 := by omega
    have hdown : (-((n.log2 : Int) - 52)).toNat = 0 := by omega
    obtain ⟨hge, hle⟩ := significand_bounds hlo
    rw [if_pos (by omega), hup, Nat.one_mul]
    refine ⟨_, hge, hle, Nat.min_eq_left (by omega), ?_⟩
    rw [IsWhole, hup, hdown, nearestWhole, Nat.pow_zero, Nat.mul_one]

theorem ofFloat_ofQuotient (negative : Bool) {n : Nat} (h : bitsOfQuotient n 1 < 2 ^ 63) :
    Binary.ofFloat (ofQuotient negative n 1) =
      .ofBits ((if negative then 2 ^ 63 else 0) + bitsOfQuotient n 1) := by
  rw [ofQuotient, Binary.ofFloat_ofBits, UInt64.toNat_ofNat', Nat.mod_eq_of_lt]
  split_ifs <;> omega

/-- The double of a whole number has its sign and is the nearest one there is. -/
theorem ofFloat_ofInt {i : Int} (hi : i.natAbs < 2 ^ 64) :
    ∃ m q, Binary.ofFloat (ofInt i) = .finite (decide (i < 0)) m q ∧
      IsWhole m q (nearestWhole i.natAbs) := by
  rcases Nat.eq_zero_or_pos i.natAbs with hz | hpos
  · obtain rfl := Int.natAbs_eq_zero.1 hz
    refine ⟨0, -1074, by decide +kernel, ?_⟩
    rw [IsWhole, Int.natAbs_zero, nearestWhole_of_lt (by decide), Nat.zero_mul, Nat.zero_mul]
  · obtain ⟨m, hlo, hhi, hbits, hwhole⟩ := bitsOfQuotient_whole hpos hi
    have hlog : i.natAbs.log2 < 64 := (Nat.log2_lt hpos.ne').2 hi
    rw [ofInt, ofFloat_ofQuotient _ (by omega), hbits, ofBits_sum _ (by omega) hlo hhi]
    split_ifs with hm
    · have hq : ((i.natAbs.log2 + 1022 : Nat) : Int) - 1074 = (i.natAbs.log2 : Int) - 52 := by omega
      rw [hq]
      exact ⟨_, _, rfl, hwhole⟩
    · obtain rfl : m = 2 ^ 52 * 2 := by omega
      have hq : ((i.natAbs.log2 + 1022 : Nat) : Int) - 1073 = (i.natAbs.log2 : Int) - 52 + 1 := by
        omega
      rw [hq]
      exact ⟨_, _, rfl, hwhole.carry⟩

theorem natAbs_toInt_lt (i : Int64) : i.toInt.natAbs < 2 ^ 64 := by
  have hlo := i.le_toInt
  have hhi := i.toInt_lt
  omega

/-- Different whole numbers with doubles that compare as equal are long ones. -/
theorem ofInt_beq {i j : Int} (hi : i.natAbs < 2 ^ 64) (hj : j.natAbs < 2 ^ 64)
    (h : (ofInt i == ofInt j) = true) : i = j ∨ 2 ^ 53 ≤ i.natAbs ∧ 2 ^ 53 ≤ j.natAbs := by
  obtain ⟨m, q, hf, hm⟩ := ofFloat_ofInt hi
  obtain ⟨k, r, hg, hk⟩ := ofFloat_ofInt hj
  rcases Binary.ofFloat_of_beq h with heq | ⟨s, t, hs, ht⟩
  · rw [hf, hg] at heq
    obtain ⟨hsign, rfl, rfl⟩ := Binary.finite.inj heq
    rw [decide_eq_decide] at hsign
    rcases nearestWhole_inj (hm.unique hk) with habs | hlong
    · exact .inl (by omega)
    · exact .inr hlong
  · obtain ⟨-, rfl, rfl⟩ := Binary.finite.inj (hf.symm.trans hs)
    obtain ⟨-, rfl, rfl⟩ := Binary.finite.inj (hg.symm.trans ht)
    rcases nearestWhole_inj (hm.unique hk) with habs | hlong
    · rcases Nat.eq_zero_or_pos i.natAbs with hz | hpos
      · exact .inl (by omega)
      · have hzero : IsWhole 0 (-1074) 0 := by rw [IsWhole, Nat.zero_mul, Nat.zero_mul]
        exact absurd (hm.unique hzero) (nearestWhole_pos hpos).ne'
    · exact .inr hlong

end Stencil.Decimal
