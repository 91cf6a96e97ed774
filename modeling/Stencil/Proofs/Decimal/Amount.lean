import Stencil.Decimal.Fixed
import Stencil.Proofs.Decimal.Double
import Stencil.Proofs.Decimal.Whole

/-!
# Amounts

What an amount is written with: the digits of the double in units of its last place,
with a comma before every three of the whole part, a point before the decimals and a
sign only where a digit other than zero is written. Taking the commas out again gives
the double with fixed places as it is written without them.
-/

set_option autoImplicit false

namespace Stencil.Decimal

/-! ## Digits -/

theorem ofDigits_from (n : Nat) (ds : List Char) :
    ds.foldl (fun n c => 10 * n + digitValue c) n = n * 10 ^ ds.length + ofDigits ds := by
  induction ds generalizing n with
  | nil => simp [ofDigits]
  | cons c r ih =>
    rw [ofDigits, List.foldl_cons, List.foldl_cons, ih, ih (10 * 0 + digitValue c), List.length_cons,
      Nat.pow_succ]
    ring

theorem ofDigits_cons (c : Char) (r : List Char) :
    ofDigits (c :: r) = digitValue c * 10 ^ r.length + ofDigits r := by
  rw [ofDigits, List.foldl_cons, ofDigits_from, Nat.mul_zero, Nat.zero_add]

theorem ofDigits_zeros (n : Nat) (ds : List Char) :
    ofDigits (List.replicate n '0' ++ ds) = ofDigits ds := by
  induction n with
  | zero => rfl
  | succ n ih =>
    have hzero : digitValue '0' = 0 := rfl
    rw [List.replicate_succ, List.cons_append, ofDigits_cons, ih, hzero, Nat.zero_mul, Nat.zero_add]

theorem digitValue_eq_zero {c : Char} (hc : c.isDigit = true) : digitValue c = 0 ↔ c = '0' := by
  rw [Char.isDigit, Bool.and_eq_true, decide_eq_true_eq, decide_eq_true_eq] at hc
  have hge : 48 ≤ c.toNat := hc.1
  constructor
  · intro h
    have hval : c.toNat = '0'.toNat := Nat.le_antisymm (Nat.sub_eq_zero_iff_le.1 h) hge
    exact Char.toNat_inj.1 hval
  · rintro rfl
    rfl

theorem isDigit_ne {c d : Char} (hc : c.isDigit = true) (hd : d.isDigit = false) : c ≠ d := by
  rintro rfl
  exact absurd hc (Bool.eq_false_iff.1 hd)

theorem ofDigits_eq_zero {ds : List Char} (h : ∀ c ∈ ds, c.isDigit = true) :
    ofDigits ds = 0 ↔ ∀ c ∈ ds, c = '0' := by
  induction ds with
  | nil => simp [ofDigits]
  | cons c r ih =>
    rw [List.forall_mem_cons] at h ⊢
    rw [ofDigits_cons, Nat.add_eq_zero_iff, ih h.2, Nat.mul_eq_zero, digitValue_eq_zero h.1]
    simp

theorem padded_length (n d : Nat) : n ≤ (padded n d).length := by
  rw [padded, List.length_append, List.length_replicate]
  omega

theorem decimals_zeros {n : Nat} (hn : 0 < n) (places : Nat) :
    decimals (n * 10 ^ places) = decimals n ++ List.replicate places '0' := by
  induction places with
  | zero => simp
  | succ p ih =>
    have hpos : 0 < n * 10 ^ p := Nat.mul_pos hn (Nat.pow_pos (by decide))
    calc decimals (n * 10 ^ (p + 1)) = decimals (10 * (n * 10 ^ p) + 0) := by
          rw [Nat.pow_succ, ← Nat.mul_assoc, Nat.mul_comm, Nat.add_zero]
      _ = decimals (n * 10 ^ p) ++ ['0'] :=
          (Nat.toDigits_append_toDigits (by decide) hpos (by decide)).symm
      _ = decimals n ++ List.replicate (p + 1) '0' := by
          rw [ih, List.append_assoc, ← List.replicate_succ']

theorem padded_zeros (n places : Nat) :
    padded (places + 1) (n * 10 ^ places) = decimals n ++ List.replicate places '0' := by
  rcases Nat.eq_zero_or_pos n with rfl | hn
  · rw [Nat.zero_mul]
    exact List.replicate_succ'.symm.trans List.replicate_succ
  · have hlen : 1 ≤ (decimals n).length := List.length_pos_of_ne_nil Nat.toDigits_ne_nil
    rw [padded, decimals_zeros hn, List.length_append, List.length_replicate]
    rw [Nat.sub_eq_zero_of_le (by omega), List.replicate_zero, List.nil_append]

theorem padded_digits (n d : Nat) : ∀ c ∈ padded n d, c.isDigit = true := by
  intro c hc
  rcases List.mem_append.1 hc with hz | hd
  · rw [List.eq_of_mem_replicate hz]
    rfl
  · exact Nat.isDigit_of_mem_toDigits (by decide) (by decide) hd

theorem ofDigits_padded (n d : Nat) : ofDigits (padded n d) = d := by
  rw [padded, ofDigits_zeros]
  exact ofDigits_toDigits d

theorem fixed_join (m : Nat) (q : Int) (places : Nat) :
    (fixed m q places).1 ++ (fixed m q places).2 = padded (places + 1) (fixedUnits m q places) :=
  List.take_append_drop ..

theorem fixed_whole_length (m : Nat) (q : Int) (places : Nat) : 1 ≤ (fixed m q places).1.length := by
  have hlen := padded_length (places + 1) (fixedUnits m q places)
  rw [fixed, List.length_take]
  omega

theorem fixed_fraction_length (m : Nat) (q : Int) (places : Nat) :
    (fixed m q places).2.length = places := by
  have hlen := padded_length (places + 1) (fixedUnits m q places)
  rw [fixed, List.length_drop]
  omega

theorem fixed_digits (m : Nat) (q : Int) (places : Nat) :
    ∀ c ∈ (fixed m q places).1 ++ (fixed m q places).2, c.isDigit = true := by
  rw [fixed_join]
  exact padded_digits _ _

theorem ofDigits_fixed (m : Nat) (q : Int) (places : Nat) :
    ofDigits ((fixed m q places).1 ++ (fixed m q places).2) = fixedUnits m q places := by
  rw [fixed_join, ofDigits_padded]

theorem fixed_any (m : Nat) (q : Int) (places : Nat) :
    ((fixed m q places).1 ++ (fixed m q places).2).any (· != '0') = true ↔
      fixedUnits m q places ≠ 0 := by
  rw [← ofDigits_fixed m q places, Ne, ofDigits_eq_zero (fixed_digits m q places)]
  simp only [List.any_eq_true, bne_iff_ne, ne_eq, not_forall, exists_prop]

/-! ## Thousands -/

theorem mem_grouped {c : Char} (hc : c ≠ ',') (ds : List Char) : c ∈ grouped ds ↔ c ∈ ds := by
  induction ds with
  | nil => rfl
  | cons d r ih =>
    rw [grouped]
    split <;> simp [ih, hc]

theorem grouped_filter {ds : List Char} (h : ',' ∉ ds) : (grouped ds).filter (· != ',') = ds := by
  induction ds with
  | nil => rfl
  | cons d r ih =>
    rw [List.mem_cons, not_or] at h
    rw [grouped]
    split <;> simp [ih h.2, Ne.symm h.1]

/-- Between the commas stand three digits each, and before the first one what is left. -/
theorem grouped_splitOn {ds : List Char} (hne : ds ≠ []) (h : ',' ∉ ds) :
    ∃ first rest, (grouped ds).splitOn ',' = first :: rest ∧
      (1 ≤ first.length ∧ first.length ≤ 3 ∧ first.length % 3 = ds.length % 3) ∧
      (∀ g ∈ rest, g.length = 3) ∧ ∀ g ∈ first :: rest, g ⊆ ds := by
  induction ds with
  | nil => exact absurd rfl hne
  | cons c r ih =>
    rw [List.mem_cons, not_or] at h
    have hc : ¬ (c == ',') = true := fun heq => h.1 (eq_of_beq heq).symm
    rw [grouped, List.length_cons]
    rcases eq_or_ne r [] with rfl | hr
    · exact ⟨[c], [], by simp [grouped, List.splitOn_cons_eq_if_modifyHead, hc], by simp, by simp,
        by simp⟩
    · obtain ⟨first, rest, hsplit, ⟨hlo, hhi, hmod⟩, hrest, hsub⟩ := ih hr h.2
      by_cases hlen : r.length % 3 = 0
      · rw [if_pos ⟨hlen, hr⟩, List.splitOn_cons_eq_if_modifyHead, if_neg hc,
          List.splitOn_cons_eq_if_modifyHead, if_pos (beq_self_eq_true _), hsplit]
        refine ⟨[c], first :: rest, rfl, by simp; omega, ?_, ?_⟩
        · exact List.forall_mem_cons.2 ⟨by omega, hrest⟩
        · refine List.forall_mem_cons.2 ⟨by simp, fun g hg => ?_⟩
          exact List.subset_cons_of_subset c (hsub g hg)
      · rw [if_neg (fun hand => hlen hand.1), List.splitOn_cons_eq_if_modifyHead, if_neg hc, hsplit]
        rw [List.forall_mem_cons] at hsub
        refine ⟨c :: first, rest, rfl, ?_, hrest, List.forall_mem_cons.2 ⟨?_, fun g hg => ?_⟩⟩
        · rw [List.length_cons]
          omega
        · exact List.cons_subset_cons c hsub.1
        · exact List.subset_cons_of_subset c (hsub.2 g hg)

theorem grouped_head (ds : List Char) : (grouped ds).head? = ds.head? := by
  cases ds with
  | nil => rfl
  | cons c r =>
    rw [grouped]
    split <;> rfl

theorem grouped_getLast (ds : List Char) : (grouped ds).getLast? = ds.getLast? := by
  induction ds with
  | nil => rfl
  | cons c r ih =>
    rw [grouped]
    split
    · next h =>
      obtain ⟨d, t, rfl⟩ := List.exists_cons_of_ne_nil h.2
      rw [List.getLast?_cons_cons, List.getLast?_cons, ih, List.getLast?_cons_cons,
        List.getLast?_cons]
      rfl
    · rw [List.getLast?_cons, List.getLast?_cons, ih]

structure InThrees (whole : List Char) : Prop where
  starts : whole.head? ≠ some ','
  ends : whole.getLast? ≠ some ','
  groups : ∃ first rest, whole.splitOn ',' = first :: rest ∧
    (1 ≤ first.length ∧ first.length ≤ 3) ∧ (∀ g ∈ rest, g.length = 3) ∧
    ∀ g ∈ first :: rest, ∀ c ∈ g, c.isDigit = true

theorem grouped_inThrees {ds : List Char} (hne : ds ≠ []) (h : ∀ c ∈ ds, c.isDigit = true) :
    InThrees (grouped ds) := by
  have hcomma : ',' ∉ ds := fun hmem => absurd (h _ hmem) (by decide)
  obtain ⟨first, rest, hsplit, ⟨hlo, hhi, -⟩, hrest, hsub⟩ := grouped_splitOn hne hcomma
  refine ⟨?_, ?_, first, rest, hsplit, ⟨hlo, hhi⟩, hrest, fun g hg c hc => h c (hsub g hg hc)⟩
  · rw [grouped_head]
    exact fun hhead => hcomma (List.mem_of_mem_head? hhead)
  · rw [grouped_getLast]
    exact fun hlast => hcomma (List.mem_of_mem_getLast? hlast)

/-! ## The text of an amount -/

def pointed (places : Nat) (fraction : List Char) : List Char :=
  if places = 0 then [] else '.' :: fraction

def plain (f : Float) (places : Nat) : List Char :=
  match Binary.ofFloat f with
  | .finite negative m q =>
    (if negative then ['-'] else []) ++
      ((fixed m q places).1 ++ pointed places (fixed m q places).2)
  | b => Style.bare.write b

def units (f : Float) (places : Nat) : Nat :=
  match Binary.ofFloat f with
  | .finite _ m q => fixedUnits m q places
  | _ => 0

theorem units_abs (f : Float) (places : Nat) : units f.abs places = units f places := by
  rw [units, units, Binary.ofFloat_abs]
  cases Binary.ofFloat f <;> rfl

theorem amount_eq {f : Float} {negative : Bool} {m : Nat} {q : Int}
    (h : Binary.ofFloat f = .finite negative m q) (places : Nat) :
    amount f places = (if negative = true ∧ units f places ≠ 0 then ['-'] else []) ++
      (grouped (fixed m q places).1 ++ pointed places (fixed m q places).2) := by
  have hsign : (negative && ((fixed m q places).1 ++ (fixed m q places).2).any (· != '0')) = true ↔
      negative = true ∧ units f places ≠ 0 := by
    rw [Bool.and_eq_true, fixed_any, units, h]
  rw [amount, h]
  simp only [hsign, pointed, List.append_assoc]

theorem digit_mem_amount {f : Float} {negative : Bool} {m : Nat} {q : Int}
    (h : Binary.ofFloat f = .finite negative m q) (places : Nat) {c : Char}
    (hc : c.isDigit = true) :
    c ∈ amount f places ↔ c ∈ (fixed m q places).1 ++ (fixed m q places).2 := by
  have hcomma : c ≠ ',' := isDigit_ne hc rfl
  have hpoint : c ≠ '.' := isDigit_ne hc rfl
  have hminus : c ≠ '-' := isDigit_ne hc rfl
  have hfraction := fixed_fraction_length m q places
  have hpointed : c ∈ pointed places (fixed m q places).2 ↔ c ∈ (fixed m q places).2 := by
    rw [pointed]
    split_ifs with hz
    · rw [List.eq_nil_of_length_eq_zero (hfraction.trans hz)]
    · rw [List.mem_cons, or_iff_right hpoint]
  have hsign : c ∉ (if negative = true ∧ units f places ≠ 0 then ['-'] else []) := by
    split_ifs <;> simp [hminus]
  rw [amount_eq h, List.mem_append, or_iff_right hsign, List.mem_append, mem_grouped hcomma,
    hpointed, List.mem_append]

theorem amount_nonzero {f : Float} (hf : f.isFinite = true) (places : Nat) :
    (∃ c ∈ amount f places, c.isDigit = true ∧ c ≠ '0') ↔ units f places ≠ 0 := by
  obtain ⟨negative, m, q, hparts⟩ := Binary.isFinite_iff.1 hf
  rw [units, hparts, ← fixed_any m q places, List.any_eq_true]
  constructor
  · rintro ⟨c, hmem, hc, hne⟩
    exact ⟨c, (digit_mem_amount hparts places hc).1 hmem, bne_iff_ne.2 hne⟩
  · rintro ⟨c, hmem, hne⟩
    have hc := fixed_digits m q places c hmem
    exact ⟨c, (digit_mem_amount hparts places hc).2 hmem, hc, bne_iff_ne.1 hne⟩

theorem amount_minus {f : Float} {negative : Bool} {m : Nat} {q : Int}
    (h : Binary.ofFloat f = .finite negative m q) (places : Nat) :
    '-' ∈ amount f places ↔ negative = true ∧ units f places ≠ 0 := by
  have hdigits := fixed_digits m q places
  rw [List.forall_mem_append] at hdigits
  have hwhole : '-' ∉ grouped (fixed m q places).1 := by
    rw [mem_grouped (by decide)]
    exact fun hmem => absurd (hdigits.1 _ hmem) (by decide)
  have hfraction : '-' ∉ pointed places (fixed m q places).2 := by
    rw [pointed]
    split_ifs
    · exact List.not_mem_nil
    · rw [List.mem_cons, or_iff_right (by decide)]
      exact fun hmem => absurd (hdigits.2 _ hmem) (by decide)
  rw [amount_eq h, List.mem_append, List.mem_append, or_iff_left (not_or.2 ⟨hwhole, hfraction⟩)]
  split_ifs with hsign
  · simp [hsign]
  · simp [hsign]

structure Grouping (f : Float) (places : Nat) (sign whole fraction : List Char) : Prop where
  text : amount f places = sign ++ (whole ++ pointed places fraction)
  signed : sign = [] ∨ sign = ['-']
  inThrees : InThrees whole
  decimals : fraction.length = places ∧ ∀ c ∈ fraction, c.isDigit = true
  /-- Without the commas it is the magnitude with fixed places, -/
  digits : whole.filter (· != ',') ++ pointed places fraction = plain f.abs places
  /-- which has the units that are nearest to it. -/
  value : ofDigits (whole.filter (· != ',') ++ fraction) = units f places

/-- Thousands are put apart without losing a digit. -/
theorem amount_grouped {f : Float} (hf : f.isFinite = true) (places : Nat) :
    ∃ sign whole fraction, Grouping f places sign whole fraction := by
  obtain ⟨negative, m, q, hparts⟩ := Binary.isFinite_iff.1 hf
  have hdigits := fixed_digits m q places
  rw [List.forall_mem_append] at hdigits
  have hcomma : ',' ∉ (fixed m q places).1 := fun hmem => absurd (hdigits.1 _ hmem) (by decide)
  have hne : (fixed m q places).1 ≠ [] :=
    List.ne_nil_of_length_pos (fixed_whole_length m q places)
  refine ⟨_, _, (fixed m q places).2, amount_eq hparts places, ?_, grouped_inThrees hne hdigits.1,
    ⟨fixed_fraction_length m q places, hdigits.2⟩, ?_, ?_⟩
  · split_ifs
    · exact .inr rfl
    · exact .inl rfl
  · rw [grouped_filter hcomma, plain, Binary.ofFloat_abs_finite hparts]
    rfl
  · rw [grouped_filter hcomma, ofDigits_fixed, units, hparts]

theorem amount_grouped_thousand : (-999999.996 : Float).isFinite = true ∧
    ∃ sign whole fraction, Grouping (-999999.996) 2 sign whole fraction := by
  have h : (-999999.996 : Float).isFinite = true := by decide +kernel
  exact ⟨h, amount_grouped h 2⟩

example : String.ofList (amount (-999999.996) 2) = "-1,000,000.00" := by decide +kernel

end Stencil.Decimal
