import Stencil.Value.Basic

/-!
# Values and JSON

Data and JSON hold the same things but for numbers: JSON has whole numbers of any size,
data has floats that are not finite. Converting either way and back changes nothing but
these, and turns what can be called or answers keys into something else. So a number is
kept as what it is, a whole float as a float.
-/

set_option autoImplicit false

namespace Stencil

namespace Value

mutual

def Finite : Value → Prop
  | float f => f.isFinite = true
  | array items => FiniteItems items
  | object fields => FiniteFields fields
  | getter _ | lambda _ | accessor .. | node .. => False
  | null | bool _ | int _ | string _ => True

def FiniteItems : List Value → Prop
  | [] => True
  | v :: vs => v.Finite ∧ FiniteItems vs

def FiniteFields : List (String × Value) → Prop
  | [] => True
  | (_, v) :: fs => v.Finite ∧ FiniteFields fs

end

end Value

namespace Json

def FitsWord (i : Int) : Prop := -(2 ^ 63) ≤ i ∧ i < 2 ^ 63

instance (i : Int) : Decidable (FitsWord i) := inferInstanceAs (Decidable (_ ∧ _))

mutual

def Narrow : Json → Prop
  | int i => FitsWord i
  | float f => f.isFinite = true
  | array items => NarrowItems items
  | object fields => NarrowFields fields
  | null | bool _ | string _ => True

def NarrowItems : List Json → Prop
  | [] => True
  | j :: js => j.Narrow ∧ NarrowItems js

def NarrowFields : List (String × Json) → Prop
  | [] => True
  | (_, j) :: fs => j.Narrow ∧ NarrowFields fs

end

end Json

namespace Value

theorem fitsWord_toInt (i : Int64) : Json.FitsWord i.toInt := ⟨i.le_toInt, i.toInt_lt⟩

theorem ofJson_int {i : Int} (h : Json.FitsWord i) : ofJson (.int i) = int (Int64.ofInt i) := by
  rw [ofJson]
  exact if_pos h

theorem ofJson_int_of_not {i : Int} (h : ¬ Json.FitsWord i) :
    ofJson (.int i) = float (Decimal.ofInt i) := by
  rw [ofJson]
  exact if_neg h

theorem toJson_float {f : Float} (h : f.isFinite = true) : toJson (float f) = .float f := by
  rw [toJson, if_pos h]

theorem toJson_float_of_not {f : Float} (h : f.isFinite ≠ true) : toJson (float f) = .null := by
  rw [toJson, if_neg h]

theorem ofJson_plain (j : Json) : (∀ id owner fields, ofJson j ≠ node id owner fields) ∧
    ∀ id props view, ofJson j ≠ accessor id props view := by
  cases j with
  | int i =>
    by_cases h : Json.FitsWord i
    · rw [ofJson_int h]
      exact ⟨nofun, nofun⟩
    · rw [ofJson_int_of_not h]
      exact ⟨nofun, nofun⟩
  | _ => exact ⟨nofun, nofun⟩

mutual

theorem ofJson_toJson (v : Value) : ofJson v.toJson = v ↔ v.Finite := by
  cases v with
  | float f =>
    by_cases h : f.isFinite = true
    · rw [toJson_float h, Finite]
      exact iff_of_true rfl h
    · rw [toJson_float_of_not h, Finite]
      exact iff_of_false nofun h
  | int i =>
    rw [toJson, ofJson_int (fitsWord_toInt i), Int64.ofInt_toInt]
    exact iff_of_true rfl trivial
  | array items =>
    rw [toJson, ofJson, Finite, ← ofJsonItems_toJson items, array.injEq]
  | object fields =>
    rw [toJson, ofJson, Finite, ← ofJsonFields_toJson fields, object.injEq]
  | node id owner fields => exact iff_of_false ((ofJson_plain _).1 id owner fields) not_false
  | accessor id props view => exact iff_of_false ((ofJson_plain _).2 id props view) not_false
  | getter id => exact iff_of_false nofun not_false
  | lambda id => exact iff_of_false nofun not_false
  | null => exact iff_of_true rfl trivial
  | bool b => exact iff_of_true rfl trivial
  | string s => exact iff_of_true rfl trivial
termination_by structural v

theorem ofJsonItems_toJson (vs : List Value) :
    ofJsonItems (toJsonItems vs) = vs ↔ FiniteItems vs := by
  cases vs with
  | nil => exact iff_of_true rfl trivial
  | cons v vs =>
    rw [toJsonItems, ofJsonItems, FiniteItems, ← ofJson_toJson v, ← ofJsonItems_toJson vs,
      List.cons.injEq]
termination_by structural vs

theorem ofJsonFields_toJson (fs : List (String × Value)) :
    ofJsonFields (toJsonFields fs) = fs ↔ FiniteFields fs := by
  cases fs with
  | nil => exact iff_of_true rfl trivial
  | cons f fs =>
    obtain ⟨k, v⟩ := f
    rw [toJsonFields, ofJsonFields, FiniteFields, ← ofJson_toJson v, ← ofJsonFields_toJson fs,
      List.cons.injEq, Prod.mk.injEq, eq_self, true_and]
termination_by structural fs

end

mutual

theorem toJson_ofJson (j : Json) : (ofJson j).toJson = j ↔ j.Narrow := by
  cases j with
  | int i =>
    by_cases h : Json.FitsWord i
    · have hback : (Int64.ofInt i).toInt = i := Int64.toInt_ofInt_of_le h.1 h.2
      rw [ofJson_int h, toJson, hback]
      exact iff_of_true rfl h
    · have hfloat : (ofJson (.int i)).toJson ≠ .int i := by
        rw [ofJson_int_of_not h, toJson]
        split
        · nofun
        · nofun
      exact iff_of_false hfloat h
  | float f =>
    by_cases h : f.isFinite = true
    · rw [ofJson, toJson_float h, Json.Narrow]
      exact iff_of_true rfl h
    · rw [ofJson, toJson_float_of_not h, Json.Narrow]
      exact iff_of_false nofun h
  | array items =>
    rw [ofJson, toJson, Json.Narrow, ← toJsonItems_ofJson items, Json.array.injEq]
  | object fields =>
    rw [ofJson, toJson, Json.Narrow, ← toJsonFields_ofJson fields, Json.object.injEq]
  | null => exact iff_of_true rfl trivial
  | bool b => exact iff_of_true rfl trivial
  | string s => exact iff_of_true rfl trivial
termination_by structural j

theorem toJsonItems_ofJson (js : List Json) :
    toJsonItems (ofJsonItems js) = js ↔ Json.NarrowItems js := by
  cases js with
  | nil => exact iff_of_true rfl trivial
  | cons j js =>
    rw [ofJsonItems, toJsonItems, Json.NarrowItems, ← toJson_ofJson j, ← toJsonItems_ofJson js,
      List.cons.injEq]
termination_by structural js

theorem toJsonFields_ofJson (fs : List (String × Json)) :
    toJsonFields (ofJsonFields fs) = fs ↔ Json.NarrowFields fs := by
  cases fs with
  | nil => exact iff_of_true rfl trivial
  | cons f fs =>
    obtain ⟨k, j⟩ := f
    rw [ofJsonFields, toJsonFields, Json.NarrowFields, ← toJson_ofJson j,
      ← toJsonFields_ofJson fs, List.cons.injEq, Prod.mk.injEq, eq_self, true_and]
termination_by structural fs

end

/-- Exactly the data with finite floats comes back from JSON as it was, and exactly the
JSON with whole numbers of 64 bits comes back from data. -/
theorem json_both_ways :
    (∀ v : Value, ofJson v.toJson = v ↔ v.Finite) ∧
      ∀ j : Json, (ofJson j).toJson = j ↔ j.Narrow :=
  ⟨ofJson_toJson, toJson_ofJson⟩

end Value

end Stencil
