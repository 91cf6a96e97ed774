import Stencil.Template.Span
import Mathlib.Data.List.Basic

/-!
# Offsets and spans

What a span says about the bytes of its source. The ends of a span are clamped
offsets; in a source whose bytes fit a word they are the offsets themselves, and
the span covers exactly the text between them.
-/

set_option autoImplicit false

namespace Stencil

namespace Text

theorem byteLength_pos {s : List Char} (h : s ≠ []) : 0 < byteLength s := by
  cases s with
  | nil => exact absurd rfl h
  | cons c s =>
    have hc := c.utf8Size_pos
    rw [byteLength_cons]
    omega

theorem byteLength_replicate (n : Nat) (c : Char) :
    byteLength (List.replicate n c) = n * c.utf8Size := by
  rw [byteLength, List.map_replicate, List.sum_replicate_nat]

theorem splitBytes_append (a s : List Char) (n : Nat) :
    splitBytes (byteLength a + n) (a ++ s) = (splitBytes n s).map fun (x, y) => (a ++ x, y) := by
  induction a with
  | nil => simp [byteLength_nil]
  | cons c a ih =>
    have hc := c.utf8Size_pos
    obtain ⟨k, hk⟩ : ∃ k, byteLength (c :: a) + n = k + 1 := ⟨_, (Nat.succ_pred (by
      rw [byteLength_cons]; omega)).symm⟩
    have hr : k + 1 - c.utf8Size = byteLength a + n := by rw [byteLength_cons] at hk; omega
    rw [hk, List.cons_append, splitBytes, if_pos (by rw [byteLength_cons] at hk; omega), hr, ih]
    simp [Option.map_map, Function.comp_def]

theorem splitBytes_left (a s : List Char) : splitBytes (byteLength a) (a ++ s) = some (a, s) := by
  simpa [splitBytes] using splitBytes_append a s 0

theorem bytesBetween_middle (a m z : List Char) :
    bytesBetween (byteLength a) (byteLength a + byteLength m) (a ++ (m ++ z)) = some m := by
  simp [bytesBetween, splitBytes_left]

end Text

namespace Span

theorem clamp_toNat (n : Nat) : (clamp n).toNat = min n (2 ^ 32 - 1) := by
  simp only [clamp, UInt32.toNat_ofNat']
  omega

theorem clamp_toNat_of_lt {n : Nat} (h : n < 2 ^ 32) : (clamp n).toNat = n := by
  rw [clamp_toNat]
  omega

theorem clamp_self (u : UInt32) : clamp u.toNat = u := by
  apply UInt32.toNat_inj.1
  have := u.toNat_lt
  rw [clamp_toNat]
  omega

theorem clamp_clamp (n : Nat) : clamp (clamp n).toNat = clamp n := by
  apply UInt32.toNat_inj.1
  simp only [clamp_toNat]
  omega

theorem clamp_le_clamp {m n : Nat} (h : m ≤ n) : clamp m ≤ clamp n := by
  rw [UInt32.le_iff_toNat_le, clamp_toNat, clamp_toNat]
  omega

theorem ofBounds_of_le {start stop : Nat} (h : start ≤ stop) :
    ofBounds start stop = ⟨clamp start, clamp stop - clamp start⟩ := by
  have hm : max (clamp stop) (clamp start) = clamp stop := by
    change (if clamp stop ≤ clamp start then clamp start else clamp stop) = clamp stop
    split
    · next hc => exact UInt32.le_antisymm (clamp_le_clamp h) hc
    · rfl
  simp only [ofBounds, hm]

theorem ofBounds_stop {start stop : Nat} (h : start ≤ stop) :
    (ofBounds start stop).stop = clamp stop := by
  have hc := UInt32.le_iff_toNat_le.1 (clamp_le_clamp h)
  rw [ofBounds_of_le h, Span.stop, UInt32.toNat_sub_of_le _ _ (clamp_le_clamp h),
    Nat.add_sub_cancel' hc, clamp_clamp]

section Exact

variable {start stop : Nat} (h : start ≤ stop) (hs : stop < 2 ^ 32)
include h hs

theorem start_toNat : (ofBounds start stop).start.toNat = start := by
  rw [ofBounds_of_le h, clamp_toNat_of_lt (by omega)]

theorem stop_toNat : (ofBounds start stop).stop.toNat = stop := by
  rw [ofBounds_stop h, clamp_toNat_of_lt hs]

theorem length_toNat : (ofBounds start stop).length.toNat = stop - start := by
  rw [ofBounds_of_le h, UInt32.toNat_sub_of_le _ _ (clamp_le_clamp h), clamp_toNat_of_lt hs,
    clamp_toNat_of_lt (by omega)]

end Exact

/-- In a source whose bytes fit a word a span covers the text between its ends. -/
theorem slice_ofBounds (a m z : List Char)
    (h : Text.byteLength a + Text.byteLength m < 2 ^ 32) :
    (ofBounds (Text.byteLength a) (Text.byteLength a + Text.byteLength m)).slice (a ++ (m ++ z)) =
      m := by
  rw [slice, start_toNat (by omega) h, stop_toNat (by omega) h, Text.bytesBetween_middle]
  rfl

end Span

end Stencil
