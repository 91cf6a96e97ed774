import Mathlib
import Stencil.Decimal.Binary

/-!
# Doubles and their parts

What a double is taken apart into is what its arithmetic goes by: its sign, its
significand and its exponent. So taking the magnitude drops the sign, being finite can be
read off the parts, and but for the two zeros equal doubles have the same ones.
-/

set_option autoImplicit false

namespace Stencil.Decimal.Binary

open Float.Model UnpackedFloat

def signed : Sign → Bool
  | .positive => false
  | .negative => true

def ofUnpacked : UnpackedFloat → Binary
  | .notANumber => nan
  | .infinity s => infinite (signed s)
  | .zero s => finite (signed s) 0 (-1074)
  | .finite s m e _ => finite (signed s) m e

def unsigned : Binary → Binary
  | nan => nan
  | infinite _ => infinite false
  | finite _ m q => finite false m q

theorem signed_ofBitVec (b : BitVec 1) : signed (Sign.ofBitVec b) = (b.toNat == 1) := by
  decide +revert

theorem sign_toNat (b : BitVec Format.binary64.numBits) :
    (unpackSign b).toNat = b.toNat / 2 ^ 63 % 2 := by
  rw [unpackSign_def, BitVec.extractLsb'_toNat, Nat.shiftRight_eq_div_pow]
  rfl

theorem exponent_toNat (b : BitVec Format.binary64.numBits) :
    (unpackExponent b).toNat = b.toNat / 2 ^ 52 % 2 ^ 11 := by
  rw [unpackExponent_def, BitVec.extractLsb'_toNat, Nat.shiftRight_eq_div_pow]

theorem fraction_toNat (b : BitVec Format.binary64.numBits) :
    (unpackMantissa b).toNat = b.toNat % 2 ^ 52 := by
  rw [unpackMantissa_def, BitVec.extractLsb'_toNat, Nat.shiftRight_zero]

theorem significand_toNat (v : BitVec 52) : (1#1 ++ v).toNat = 2 ^ 52 + v.toNat := by
  rw [BitVec.toNat_append, ← Nat.shiftLeft_add_eq_or_of_lt v.isLt]
  rfl

/-- Reading the parts off the bits is the same on numbers as it is on words. -/
theorem ofUnpacked_unpack (b : BitVec Format.binary64.numBits) :
    ofUnpacked (unpack .binary64 b) = ofBits b.toNat := by
  have hsign : signed (Sign.ofBitVec (unpackSign b)) = (b.toNat / 2 ^ 63 % 2 == 1) := by
    rw [signed_ofBitVec, sign_toNat]
  have hinf : unpackExponent b = -1#11 ↔ (unpackExponent b).toNat = 2 ^ 11 - 1 :=
    BitVec.toNat_inj.symm
  have hsub : unpackExponent b = 0#11 ↔ (unpackExponent b).toNat = 0 := BitVec.toNat_inj.symm
  have hzero : unpackMantissa b = 0#52 ↔ (unpackMantissa b).toNat = 0 := BitVec.toNat_inj.symm
  rw [ofBits, ← hsign, ← exponent_toNat, ← fraction_toNat]
  fun_cases unpack .binary64 b with
  | case1 m e s sign he hm =>
    rw [if_pos (hinf.1 he), if_pos (hzero.1 hm)]
    rfl
  | case2 m e he hm =>
    rw [if_pos (hinf.1 he), if_neg (mt hzero.2 hm)]
    rfl
  | case3 m e s sign he hz hm =>
    rw [if_neg (mt hinf.2 he), if_pos (hsub.1 hz), hzero.1 hm]
    rfl
  | case4 m e v s sign he hz hm =>
    have hexp : v + 1 = -1074 := by
      show ((unpackExponent b).toNat : Int) - (1023 + 52) + 1 = -1074
      rw [hsub.1 hz]
      rfl
    rw [if_neg (mt hinf.2 he), if_pos (hsub.1 hz), ofUnpacked, hexp]
  | case5 m e v s sign he hz =>
    rw [if_neg (mt hinf.2 he), if_neg (mt hsub.2 hz), ofUnpacked, significand_toNat]
    rfl

theorem ofFloat_unpack (f : Float) : ofFloat f = ofUnpacked f.toModel.unpack :=
  (ofUnpacked_unpack _).symm

/-- Packing what was unpacked changes bits only where they are read as no number. -/
theorem unpack_pack_unpack (b : BitVec Format.binary64.numBits) :
    unpack .binary64 (UnpackedFloat.pack .binary64 (unpack .binary64 b)) = unpack .binary64 b := by
  rw [pack_unpack]
  split
  · next h =>
    obtain ⟨he, hm⟩ := of_decide_eq_true h
    rw [unpack_packedNaN]
    simp [UnpackedFloat.unpack, he, hm]
  · rfl

theorem ofFloat_ofBits (u : UInt64) : ofFloat (Float.ofBits u) = ofBits u.toNat := by
  rw [ofFloat_unpack]
  exact (congrArg ofUnpacked (unpack_pack_unpack _)).trans (ofUnpacked_unpack u.toBitVec)

theorem unpack_abs (b : BitVec Format.binary64.numBits) :
    (unpack .binary64 b).abs = unpack .binary64
      (packComponents .binary64 .positive (unpackExponent b) (unpackMantissa b)) := by
  rw [UnpackedFloat.unpack, UnpackedFloat.unpack]
  simp only [unpackExponent_packComponents, unpackMantissa_packComponents,
    unpackSign_packComponents]
  split_ifs <;> rfl

theorem ofFloat_abs (f : Float) : ofFloat f.abs = (ofFloat f).unsigned := by
  have h : f.abs.toModel.unpack = f.toModel.unpack.abs := by
    show unpack .binary64 (UnpackedFloat.pack .binary64 (unpack .binary64 f.toBits.toBitVec).abs) =
      (unpack .binary64 f.toBits.toBitVec).abs
    rw [unpack_abs, unpack_pack_unpack]
  rw [ofFloat_unpack, ofFloat_unpack, h]
  cases f.toModel.unpack <;> rfl

theorem ofFloat_abs_finite {f : Float} {negative : Bool} {m : Nat} {q : Int}
    (h : ofFloat f = finite negative m q) : ofFloat f.abs = finite false m q := by
  rw [ofFloat_abs, h]
  rfl

theorem isFinite_iff {f : Float} :
    f.isFinite = true ↔ ∃ negative m q, ofFloat f = finite negative m q := by
  have h : f.isFinite = f.toModel.unpack.isFinite := rfl
  rw [h, ofFloat_unpack]
  cases f.toModel.unpack <;> simp [UnpackedFloat.isFinite, ofUnpacked]

theorem isFinite_abs {f : Float} (h : f.isFinite = true) : f.abs.isFinite = true := by
  obtain ⟨negative, m, q, hparts⟩ := isFinite_iff.1 h
  exact isFinite_iff.2 ⟨false, m, q, ofFloat_abs_finite hparts⟩

theorem ofFloat_lt {f : Float} {negative : Bool} {m : Nat} {q : Int}
    (h : ofFloat f = finite negative m q) : m < 2 ^ 53 := by
  rw [ofFloat, ofBits] at h
  split_ifs at h <;> cases h <;> omega

/-- Doubles that compare as equal have the same parts, or are the two zeros. -/
theorem ofFloat_of_beq {f g : Float} (h : (f == g) = true) :
    ofFloat f = ofFloat g ∨ ∃ s t, ofFloat f = finite s 0 (-1074) ∧ ofFloat g = finite t 0 (-1074) := by
  have hzero : ofFloat 0 = finite false 0 (-1074) := by decide +kernel
  have hminus : ofFloat (-0) = finite true 0 (-1074) := by decide +kernel
  obtain ⟨-, -, rfl | ⟨rfl, rfl⟩ | ⟨rfl, rfl⟩⟩ := Float.beq_iff_ne_nan_and_eq.1 h
  · exact .inl rfl
  · exact .inr ⟨_, _, hzero, hminus⟩
  · exact .inr ⟨_, _, hminus, hzero⟩

end Stencil.Decimal.Binary
