import Stencil.Value.Basic
import Stencil.Proofs.Decimal.Rounding

/-!
# Equality of values

Equality is symmetric. It is transitive but for whole numbers compared by way of a
float: two of them that become the same double are both equal to it, and not to each
other. Only numbers from `2 ^ 53` on come together so.
-/

set_option autoImplicit false

namespace Stencil.Value

/-- At some place two values hold different whole numbers, both of more than 53 binary
digits, where a third one holds a float. -/
inductive Parted : Value → Value → Value → Prop
  | number {i j : Int64} (f : Float) (hij : i ≠ j) (hi : 2 ^ 53 ≤ i.toInt.natAbs)
      (hj : 2 ^ 53 ≤ j.toInt.natAbs) : Parted (int i) (float f) (int j)
  | item {as bs cs : List Value} {a b c : Value} (k : Nat) (ha : as[k]? = some a)
      (hb : bs[k]? = some b) (hc : cs[k]? = some c) (h : Parted a b c) :
      Parted (array as) (array bs) (array cs)
  | field {as bs cs : List (String × Value)} {a b c : Value} (k : Nat) (name : String)
      (ha : as[k]? = some (name, a)) (hb : bs[k]? = some (name, b))
      (hc : cs[k]? = some (name, c)) (h : Parted a b c) :
      Parted (object as) (object bs) (object cs)

mutual

theorem same_comm (a b : Value) : same a b = same b a := by
  cases a with
  | array as =>
    cases b with
    | array bs => exact sameItems_comm as bs
    | _ => rfl
  | object as =>
    cases b with
    | object bs => exact sameFields_comm as bs
    | _ => rfl
  | _ => cases b <;> first | rfl | exact BEq.comm

theorem sameItems_comm (as bs : List Value) : sameItems as bs = sameItems bs as := by
  cases as with
  | nil => cases bs <;> rfl
  | cons a as =>
    cases bs with
    | nil => rfl
    | cons b bs => rw [sameItems, sameItems, same_comm a b, sameItems_comm as bs]

theorem sameFields_comm (as bs : List (String × Value)) : sameFields as bs = sameFields bs as := by
  cases as with
  | nil => cases bs <;> rfl
  | cons f as =>
    cases bs with
    | nil => rfl
    | cons g bs =>
      obtain ⟨j, a⟩ := f
      obtain ⟨k, b⟩ := g
      rw [sameFields, sameFields, same_comm a b, sameFields_comm as bs, BEq.comm]

end

/-! ## Values equal to a third -/

theorem same_array {as : List Value} {b : Value} (h : same (array as) b = true) :
    ∃ bs, b = array bs ∧ sameItems as bs = true := by
  cases b with
  | array bs => exact ⟨bs, rfl, h⟩
  | _ => cases h

theorem same_object {as : List (String × Value)} {b : Value} (h : same (object as) b = true) :
    ∃ bs, b = object bs ∧ sameFields as bs = true := by
  cases b with
  | object bs => exact ⟨bs, rfl, h⟩
  | _ => cases h

def Atom : Value → Prop
  | array _ | object _ => False
  | _ => True

inductive Pair : Value → Value → Prop
  | refl (a : Value) : Pair a a
  | whole {i : Int64} {f : Float} (h : (Decimal.ofInt i.toInt == f) = true) :
      Pair (int i) (float f)
  | double {f : Float} {i : Int64} (h : (Decimal.ofInt i.toInt == f) = true) :
      Pair (float f) (int i)
  | doubles {f g : Float} (h : (f == g) = true) : Pair (float f) (float g)
  | accessor (id : Nat) (ps qs : List (String × Value)) (v w : Option Value) :
      Pair (accessor id ps v) (accessor id qs w)
  | node (id : NodeId) (o p : Owner) (fs gs : List (String × Value)) :
      Pair (node id o fs) (node id p gs)

theorem Pair.of_same {a b : Value} (ha : a.Atom) (h : same a b = true) : Pair a b := by
  cases a with
  | array as => exact ha.elim
  | object fs => exact ha.elim
  | null =>
    cases b with
    | null => exact .refl _
    | _ => cases h
  | int i =>
    cases b with
    | int j => exact eq_of_beq h ▸ .refl _
    | float f => exact .whole h
    | _ => cases h
  | float f =>
    cases b with
    | int i => exact .double h
    | float g => exact .doubles h
    | _ => cases h
  | accessor x ps v =>
    cases b with
    | accessor y qs w => exact eq_of_beq h ▸ .accessor x ps qs v w
    | _ => cases h
  | node x o fs =>
    cases b with
    | node y p gs => exact eq_of_beq h ▸ .node x o p fs gs
    | _ => cases h
  | _ => cases b <;> first | cases h | exact eq_of_beq h ▸ .refl _

/-- Whole numbers both equal to one float are the same one, or are parted by it. -/
theorem parted_of_float {i j : Int64} {f : Float}
    (hi : (Decimal.ofInt i.toInt == f) = true) (hj : (Decimal.ofInt j.toInt == f) = true) :
    same (int i) (int j) = true ∨ Parted (int i) (float f) (int j) := by
  by_cases hij : i = j
  · exact .inl (beq_iff_eq.2 hij)
  · have hne : i.toInt ≠ j.toInt := fun h => hij (Int64.toInt_inj.1 h)
    have hdouble : (Decimal.ofInt i.toInt == Decimal.ofInt j.toInt) = true :=
      PartialEquivBEq.trans hi (PartialEquivBEq.symm hj)
    obtain ⟨hli, hlj⟩ := (Decimal.ofInt_beq (Decimal.natAbs_toInt_lt i)
      (Decimal.natAbs_toInt_lt j) hdouble).resolve_left hne
    exact .inr (.number f hij hli hlj)

/-- Two floats equal to one another are equal to the same values. -/
theorem same_of_doubles {f g : Float} {c : Value} (h : (f == g) = true)
    (hc : same (float g) c = true) : same (float f) c = true := by
  cases c with
  | int k => exact PartialEquivBEq.trans hc (PartialEquivBEq.symm h)
  | float e => exact PartialEquivBEq.trans h hc
  | _ => cases hc

/-- A float equal to a whole number is equal to what that is equal to. -/
theorem same_of_whole {f : Float} {i : Int64} {c : Value}
    (h : (Decimal.ofInt i.toInt == f) = true) (hc : same (int i) c = true) :
    same (float f) c = true := by
  cases c with
  | int k =>
    obtain rfl : i = k := eq_of_beq hc
    exact h
  | float e => exact PartialEquivBEq.trans (PartialEquivBEq.symm h) hc
  | _ => cases hc

theorem whole_or_parted {i : Int64} {f : Float} {c : Value}
    (h : (Decimal.ofInt i.toInt == f) = true) (hc : same (float f) c = true) :
    same (int i) c = true ∨ Parted (int i) (float f) c := by
  cases c with
  | int j => exact parted_of_float h hc
  | float e => exact .inl (PartialEquivBEq.trans h hc)
  | _ => cases hc

theorem Atom.same_or_parted {a b c : Value} (ha : a.Atom) (hab : same a b = true)
    (hbc : same b c = true) : same a c = true ∨ Parted a b c := by
  cases Pair.of_same ha hab with
  | refl => exact .inl hbc
  | whole h => exact whole_or_parted h hbc
  | double h => exact .inl (same_of_whole h hbc)
  | doubles h => exact .inl (same_of_doubles h hbc)
  | accessor =>
    cases c with
    | accessor => exact .inl hbc
    | _ => cases hbc
  | node =>
    cases c with
    | node => exact .inl hbc
    | _ => cases hbc

mutual

/-- Two equal values equal to a third are equal, or parted by it. -/
theorem same_or_parted {a b c : Value} (hab : same a b = true) (hbc : same b c = true) :
    same a c = true ∨ Parted a b c := by
  cases a with
  | array as =>
    obtain ⟨bs, rfl, hab⟩ := same_array hab
    obtain ⟨cs, rfl, hbc⟩ := same_array hbc
    obtain h | ⟨k, a, b, c, ha, hb, hc, h⟩ := sameItems_or_parted hab hbc
    · exact .inl h
    · exact .inr (.item k ha hb hc h)
  | object as =>
    obtain ⟨bs, rfl, hab⟩ := same_object hab
    obtain ⟨cs, rfl, hbc⟩ := same_object hbc
    obtain h | ⟨k, name, a, b, c, ha, hb, hc, h⟩ := sameFields_or_parted hab hbc
    · exact .inl h
    · exact .inr (.field k name ha hb hc h)
  | _ => exact Atom.same_or_parted trivial hab hbc
termination_by structural a

theorem sameItems_or_parted {as bs cs : List Value} (hab : sameItems as bs = true)
    (hbc : sameItems bs cs = true) :
    sameItems as cs = true ∨ ∃ (k : Nat) (a b c : Value),
      as[k]? = some a ∧ bs[k]? = some b ∧ cs[k]? = some c ∧ Parted a b c := by
  cases as with
  | nil =>
    cases bs with
    | nil => exact .inl hbc
    | cons b bs => cases hab
  | cons a as =>
    cases bs with
    | nil => cases hab
    | cons b bs =>
      cases cs with
      | nil => cases hbc
      | cons c cs =>
        rw [sameItems, Bool.and_eq_true] at hab hbc ⊢
        obtain h | h := same_or_parted hab.1 hbc.1
        · obtain hs | ⟨k, p, q, r, hp, hq, hr, hpart⟩ := sameItems_or_parted hab.2 hbc.2
          · exact .inl ⟨h, hs⟩
          · exact .inr ⟨k + 1, p, q, r, hp, hq, hr, hpart⟩
        · exact .inr ⟨0, a, b, c, rfl, rfl, rfl, h⟩
termination_by structural as

theorem sameFields_or_parted {as bs cs : List (String × Value)} (hab : sameFields as bs = true)
    (hbc : sameFields bs cs = true) :
    sameFields as cs = true ∨ ∃ (k : Nat) (name : String) (a b c : Value),
      as[k]? = some (name, a) ∧ bs[k]? = some (name, b) ∧ cs[k]? = some (name, c) ∧
        Parted a b c := by
  cases as with
  | nil =>
    cases bs with
    | nil => exact .inl hbc
    | cons g bs => cases hab
  | cons f as =>
    cases bs with
    | nil => cases hab
    | cons g bs =>
      cases cs with
      | nil => cases hbc
      | cons e cs =>
        obtain ⟨j, a⟩ := f
        obtain ⟨k, b⟩ := g
        obtain ⟨l, c⟩ := e
        simp only [sameFields, Bool.and_eq_true, beq_iff_eq] at hab hbc ⊢
        obtain ⟨⟨rfl, hab⟩, habs⟩ := hab
        obtain ⟨⟨rfl, hbc⟩, hbcs⟩ := hbc
        obtain h | h := same_or_parted hab hbc
        · obtain hs | ⟨k, n, p, q, r, hp, hq, hr, hpart⟩ := sameFields_or_parted habs hbcs
          · exact .inl ⟨⟨rfl, h⟩, hs⟩
          · exact .inr ⟨k + 1, n, p, q, r, hp, hq, hr, hpart⟩
        · exact .inr ⟨0, j, a, b, c, rfl, rfl, rfl, h⟩
termination_by structural as

end

theorem sameItems_iff {as bs : List Value} :
    sameItems as bs = true ↔ List.Forall₂ (fun a b => same a b = true) as bs := by
  induction as generalizing bs with
  | nil => cases bs <;> simp [sameItems]
  | cons a as ih =>
    cases bs with
    | nil => simp [sameItems]
    | cons b bs => rw [sameItems, Bool.and_eq_true, ih, List.forall₂_cons]

theorem sameFields_iff {as bs : List (String × Value)} : sameFields as bs = true ↔
    List.Forall₂ (fun f g => f.1 = g.1 ∧ same f.2 g.2 = true) as bs := by
  induction as generalizing bs with
  | nil => cases bs <;> simp [sameFields]
  | cons f as ih =>
    cases bs with
    | nil => simp [sameFields]
    | cons g bs =>
      rw [sameFields, Bool.and_eq_true, Bool.and_eq_true, beq_iff_eq, ih, List.forall₂_cons]

theorem Parted.differ {a b c : Value} (h : Parted a b c) : same a c ≠ true := by
  induction h with
  | number f hij => exact fun hs => hij (eq_of_beq hs)
  | item k ha hb hc h ih =>
    intro hs
    obtain ⟨hka, hak⟩ := List.getElem?_eq_some_iff.1 ha
    obtain ⟨hkc, hck⟩ := List.getElem?_eq_some_iff.1 hc
    have hitem := (sameItems_iff.1 hs).get hka hkc
    rw [List.get_eq_getElem, List.get_eq_getElem, hak, hck] at hitem
    exact ih hitem
  | field k name ha hb hc h ih =>
    intro hs
    obtain ⟨hka, hak⟩ := List.getElem?_eq_some_iff.1 ha
    obtain ⟨hkc, hck⟩ := List.getElem?_eq_some_iff.1 hc
    have hfield := (sameFields_iff.1 hs).get hka hkc
    rw [List.get_eq_getElem, List.get_eq_getElem, hak, hck] at hfield
    exact ih hfield.2

/-- Equality is symmetric, and of two values equal to a third it fails exactly where
they are parted by it. -/
theorem same_laws : (∀ a b : Value, same a b = same b a) ∧
    ∀ a b c : Value, same a b = true → same b c = true → (same a c = true ↔ ¬ Parted a b c) := by
  refine ⟨same_comm, fun a b c hab hbc => ⟨fun hac h => h.differ hac, fun h => ?_⟩⟩
  exact (same_or_parted hab hbc).resolve_right h

theorem same_laws_whole :
    same (array [int 1, float 0.5]) (array [float 1, float 0.5]) = true ∧
      same (array [float 1, float 0.5]) (array [int 1, float 0.5]) = true ∧
      ¬ Parted (array [int 1, float 0.5]) (array [float 1, float 0.5])
        (array [int 1, float 0.5]) := by
  have hab : same (array [int 1, float 0.5]) (array [float 1, float 0.5]) = true := by
    decide +kernel
  have hbc : same (array [float 1, float 0.5]) (array [int 1, float 0.5]) = true := by
    decide +kernel
  exact ⟨hab, hbc, (same_laws.2 _ _ _ hab hbc).1 (by decide +kernel)⟩

/-- Two whole numbers next to each other and the double both become. -/
theorem same_not_transitive :
    same (int 9007199254740992) (float 9007199254740992) = true ∧
      same (float 9007199254740992) (int 9007199254740993) = true ∧
      same (int 9007199254740992) (int 9007199254740993) = false := by
  decide +kernel

end Stencil.Value
