import Stencil.Format.Standard
import Stencil.Proofs.Decimal.Amount
import Stencil.Proofs.Decimal.Rounding

/-!
# Printed numbers

The formatters of numbers print amounts. Those of plain numbers and of percents take the
sign from the digits that are printed, that of money takes it from the number, which may
be rounded to nothing. All of them go through doubles: of a whole number the nearest
double is printed, which is the number itself up to `2 ^ 53`.
-/

set_option autoImplicit false

namespace Stencil

open Decimal

namespace Standard

theorem onNumber_eq {v : Value} {n : Float} (hv : v.number? = some n) (hb : ∀ b, v ≠ .bool b)
    (f : Float → List Char) : onNumber v f = .string (String.ofList (f n)) := by
  cases v with
  | bool b => exact absurd rfl (hb b)
  | _ => simp only [onNumber, hv]

theorem number_display {v : Value} {n : Float} (hv : v.number? = some n) (hb : ∀ b, v ≠ .bool b)
    (args : List Value) : (formatters.apply "number" v args).display.toList =
      amount n (natArg args 0 0) := by
  show (onNumber v _).display.toList = _
  rw [onNumber_eq hv hb, Value.display, String.toList_ofList]

theorem percent_display {v : Value} {n : Float} (hv : v.number? = some n) (hb : ∀ b, v ≠ .bool b)
    (args : List Value) : (formatters.apply "percent" v args).display.toList =
      amount (n * 100) (natArg args 0 0) ++ ['%'] := by
  show (onNumber v _).display.toList = _
  rw [onNumber_eq hv hb, Value.display, String.toList_ofList]

theorem currency_display {v : Value} {n : Float} (hv : v.number? = some n) (hb : ∀ b, v ≠ .bool b)
    (args : List Value) : (formatters.apply "currency" v args).display.toList =
      (if n < 0 then ['-'] else []) ++ (textArg args 0 "$").toList ++
        amount n.abs (natArg args 1 2) := by
  show (onNumber v _).display.toList = _
  rw [onNumber_eq hv hb, Value.display, String.toList_ofList]

/-! ## Signs -/

/-- A minus sign is printed only with a digit other than zero. -/
def SignMeant (text : List Char) : Prop := '-' ∈ text → ∃ c ∈ text, c.isDigit = true ∧ c ≠ '0'

instance (text : List Char) : Decidable (SignMeant text) :=
  inferInstanceAs (Decidable ('-' ∈ text → ∃ c ∈ text, c.isDigit = true ∧ c ≠ '0'))

def Symbol (s : List Char) : Prop := ∀ c ∈ s, c.isDigit = false ∧ c ≠ '-'

theorem amount_signMeant {f : Float} (hf : f.isFinite = true) (places : Nat) :
    SignMeant (amount f places) := by
  intro hminus
  obtain ⟨negative, m, q, hparts⟩ := Binary.isFinite_iff.1 hf
  exact (amount_nonzero hf places).2 ((amount_minus hparts places).1 hminus).2

theorem SignMeant.append {text : List Char} (h : SignMeant text) {rest : List Char}
    (hrest : '-' ∉ rest) : SignMeant (text ++ rest) := by
  intro hminus
  obtain ⟨c, hc, hne⟩ := h ((List.mem_append.1 hminus).resolve_right hrest)
  exact ⟨c, List.mem_append_left rest hc, hne⟩

structure SignsShown (v : Value) (n : Float) (args : List Value) : Prop where
  number : n.isFinite = true → SignMeant (formatters.apply "number" v args).display.toList
  percent : (n * 100).isFinite = true →
    SignMeant (formatters.apply "percent" v args).display.toList
  /-- An amount of money has the sign of the number, whatever is left of it, -/
  currency : n.isFinite = true → Symbol (textArg args 0 "$").toList →
    ('-' ∈ (formatters.apply "currency" v args).display.toList ↔ n < 0)
  /-- so that it has one without need just where a negative number is rounded to nothing. -/
  rounded : n.isFinite = true → Symbol (textArg args 0 "$").toList →
    (SignMeant (formatters.apply "currency" v args).display.toList ↔
      ¬ (n < 0 ∧ units n (natArg args 1 2) = 0))

theorem currency_minus {n : Float} (hf : n.isFinite = true) {s : List Char} (hs : Symbol s)
    (places : Nat) :
    '-' ∈ (if n < 0 then ['-'] else []) ++ s ++ amount n.abs places ↔ n < 0 := by
  obtain ⟨negative, m, q, hparts⟩ := Binary.isFinite_iff.1 hf
  have hbody : '-' ∉ amount n.abs places := fun hmem =>
    Bool.false_ne_true ((amount_minus (Binary.ofFloat_abs_finite hparts) places).1 hmem).1
  have hsymbol : '-' ∉ s := fun hmem => (hs _ hmem).2 rfl
  rw [List.mem_append, List.mem_append, or_iff_left hbody, or_iff_left hsymbol]
  split_ifs with hneg
  · exact iff_of_true List.mem_cons_self hneg
  · exact iff_of_false List.not_mem_nil hneg

theorem currency_nonzero {n : Float} (hf : n.isFinite = true) {s : List Char} (hs : Symbol s)
    (places : Nat) :
    (∃ c ∈ (if n < 0 then ['-'] else []) ++ s ++ amount n.abs places,
      c.isDigit = true ∧ c ≠ '0') ↔ units n places ≠ 0 := by
  rw [← units_abs, ← amount_nonzero (Binary.isFinite_abs hf)]
  constructor
  · rintro ⟨c, hmem, hc, hne⟩
    have hsign : c ∉ (if n < 0 then ['-'] else []) := by
      split_ifs
      · exact fun h => isDigit_ne hc rfl (List.mem_singleton.1 h)
      · exact List.not_mem_nil
    have hsymbol : c ∉ s := fun h => Bool.false_ne_true ((hs c h).1.symm.trans hc)
    rw [List.mem_append, List.mem_append, or_iff_right (not_or.2 ⟨hsign, hsymbol⟩)] at hmem
    exact ⟨c, hmem, hc, hne⟩
  · rintro ⟨c, hmem, hc⟩
    exact ⟨c, List.mem_append_right _ hmem, hc⟩

theorem signs_shown {v : Value} {n : Float} (hv : v.number? = some n) (hb : ∀ b, v ≠ .bool b)
    (args : List Value) : SignsShown v n args where
  number hf := by
    rw [number_display hv hb]
    exact amount_signMeant hf _
  percent hf := by
    rw [percent_display hv hb]
    exact (amount_signMeant hf _).append (by decide)
  currency hf hs := by
    rw [currency_display hv hb]
    exact currency_minus hf hs _
  rounded hf hs := by
    rw [currency_display hv hb, SignMeant, currency_minus hf hs, currency_nonzero hf hs]
    exact not_and.symm

theorem signs_shown_rounded : (Value.float (-0.001)).number? = some (-0.001) ∧
    (∀ b, Value.float (-0.001) ≠ .bool b) ∧ SignsShown (.float (-0.001)) (-0.001) [] := by
  have hv : (Value.float (-0.001)).number? = some (-0.001) := rfl
  have hb : ∀ b, Value.float (-0.001) ≠ .bool b := nofun
  exact ⟨hv, hb, signs_shown hv hb []⟩

/-- A tenth of a cent that is owed is printed as no money, with a minus sign. -/
theorem currency_zero_signed : (-0.001 : Float).isFinite = true ∧
    (formatters.apply "currency" (.float (-0.001)) []).display = "-$0.00" ∧
    ¬ SignMeant (formatters.apply "currency" (.float (-0.001)) []).display.toList := by
  have htext : (formatters.apply "currency" (.float (-0.001)) []).display = "-$0.00" := by
    decide +kernel
  have hlist : "-$0.00".toList = ['-', '$', '0', '.', '0', '0'] := rfl
  refine ⟨by decide +kernel, htext, ?_⟩
  rw [htext, hlist]
  simp [SignMeant]

end Standard

/-! ## Whole numbers -/

namespace Decimal

def Binary.Holds : Binary → Int → Prop
  | .finite negative m q, i => IsWhole m q i.natAbs ∧ if negative then i ≤ 0 else 0 ≤ i
  | _, _ => False

structure AsDouble (i r : Int) : Prop where
  held : (Binary.ofFloat (ofInt i)).Holds r
  nearest : ∀ f t, (Binary.ofFloat f).Holds t → (i - r).natAbs ≤ (i - t).natAbs
  /-- So it is the same number if some double is, and short ones are. -/
  short : i.natAbs ≤ 2 ^ 53 → r = i

def rounded (i : Int) : Int := if i < 0 then -nearestWhole i.natAbs else nearestWhole i.natAbs

theorem rounded_natAbs (i : Int) : (rounded i).natAbs = nearestWhole i.natAbs := by
  rw [rounded]
  split_ifs <;> omega

theorem rounded_toList (i : Int) :
    (toString (rounded i)).toList =
      (if i < 0 then ['-'] else []) ++ decimals (nearestWhole i.natAbs) := by
  by_cases hneg : i < 0
  · have hpos : 0 < nearestWhole i.natAbs := nearestWhole_pos (by omega)
    have hr : rounded i < 0 := by rw [rounded, if_pos hneg]; omega
    rw [toList_negative hr, rounded_natAbs, if_pos hneg]
    rfl
  · have hr : 0 ≤ rounded i := by rw [rounded, if_neg hneg]; omega
    rw [toList_natural hr, rounded_natAbs, if_neg hneg]
    rfl

theorem rounded_asDouble {i : Int} (hi : i.natAbs < 2 ^ 64) : AsDouble i (rounded i) where
  held := by
    obtain ⟨m, q, hparts, hwhole⟩ := ofFloat_ofInt hi
    rw [hparts, Binary.Holds, rounded_natAbs, rounded]
    refine ⟨hwhole, ?_⟩
    by_cases hneg : i < 0 <;> simp [hneg]
  nearest f t ht := by
    cases hparts : Binary.ofFloat f with
    | nan => exact absurd ht (by rw [hparts]; exact id)
    | infinite negative => exact absurd ht (by rw [hparts]; exact id)
    | finite negative m q =>
      rw [hparts] at ht
      obtain ⟨b, k, hb, habs⟩ := ht.1.digits (Binary.ofFloat_lt hparts)
      have hnear := nearestWhole_nearest i.natAbs hb (k := k)
      rw [← habs] at hnear
      rw [rounded]
      split_ifs <;> omega
  short h := by
    rw [rounded, nearestWhole_short h]
    split_ifs <;> omega

theorem IsWhole.fixed {m n : Nat} {q : Int} (h : IsWhole m q n) (places : Nat) :
    fixed m q places = (decimals n, List.replicate places '0') := by
  have hlen : (decimals n ++ List.replicate places '0').length - places = (decimals n).length := by
    rw [List.length_append, List.length_replicate, Nat.add_sub_cancel]
  rw [Decimal.fixed, h.fixedUnits, padded_zeros, hlen, List.take_left, List.drop_left]

end Decimal

namespace Standard

/-- A whole number is printed as the double it is nearest to, with zeros for decimals. -/
theorem number_of_whole (i : Int64) (args : List Value) :
    ∃ r, AsDouble i.toInt r ∧
      (formatters.apply "number" (.int i) args).display.toList.filter (· != ',') =
        (toString r).toList ++
          pointed (natArg args 0 0) (List.replicate (natArg args 0 0) '0') := by
  obtain ⟨m, q, hparts, hwhole⟩ := ofFloat_ofInt (natAbs_toInt_lt i)
  refine ⟨rounded i.toInt, rounded_asDouble (natAbs_toInt_lt i), ?_⟩
  rw [number_display (v := .int i) rfl nofun, amount_eq hparts, hwhole.fixed]
  generalize natArg args 0 0 = places
  have hsign : (decide (i.toInt < 0) = true ∧ units (ofInt i.toInt) places ≠ 0) ↔ i.toInt < 0 := by
    rw [decide_eq_true_iff, and_iff_left_iff_imp]
    intro hneg
    have hpos : 0 < nearestWhole i.toInt.natAbs := nearestWhole_pos (by omega)
    rw [units, hparts]
    exact (hwhole.fixedUnits places).trans_ne (Nat.mul_pos hpos (Nat.pow_pos (by decide))).ne'
  have hcomma : ',' ∉ decimals (nearestWhole i.toInt.natAbs) := fun hmem =>
    absurd (Nat.isDigit_of_mem_toDigits (by decide) (by decide) hmem) (by decide)
  have hpointed : (pointed places (List.replicate places '0')).filter (· != ',') =
      pointed places (List.replicate places '0') := by
    rw [List.filter_eq_self, pointed]
    split_ifs <;> simp
  have hminus : (if i.toInt < 0 then ['-'] else []).filter (· != ',') =
      if i.toInt < 0 then ['-'] else [] := by
    split_ifs <;> rfl
  simp only [hsign]
  rw [rounded_toList, List.filter_append, List.filter_append, grouped_filter hcomma, hpointed,
    hminus, List.append_assoc]

theorem number_not_exact :
    (formatters.apply "number" (.int 9007199254740993) []).display.toList.filter (· != ',') ≠
      (Value.int 9007199254740993).display.toList := by
  decide +kernel

end Standard

end Stencil
