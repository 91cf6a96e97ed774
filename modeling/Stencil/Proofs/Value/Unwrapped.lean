import Stencil.Wrap
import Mathlib.Data.List.Forall2

/-!
# Values without their nodes

A node shows itself as the object it wraps. Reading off a value what can be read off
without asking it gives the same whether its nodes are there or are objects again, and
wrapping does nothing but make nodes.
-/

set_option autoImplicit false

namespace Stencil

namespace Value

mutual

def unwrapped : Value → Value
  | array items => array (unwrappedItems items)
  | object fields => object (unwrappedFields fields)
  | node _ _ fields => object (unwrappedFields fields)
  | v => v

def unwrappedItems : List Value → List Value
  | [] => []
  | v :: vs => v.unwrapped :: unwrappedItems vs

def unwrappedFields : List (String × Value) → List (String × Value)
  | [] => []
  | (k, v) :: fs => (k, v.unwrapped) :: unwrappedFields fs

end

mutual

def Plain : Value → Prop
  | array items => PlainItems items
  | object fields => PlainFields fields
  | getter _ | lambda _ | accessor .. | node .. => False
  | null | bool _ | int _ | float _ | string _ => True

def PlainItems : List Value → Prop
  | [] => True
  | v :: vs => v.Plain ∧ PlainItems vs

def PlainFields : List (String × Value) → Prop
  | [] => True
  | (_, v) :: fs => v.Plain ∧ PlainFields fs

end

theorem unwrappedItems_eq (vs : List Value) : unwrappedItems vs = vs.map unwrapped := by
  induction vs with
  | nil => rfl
  | cons v vs ih => rw [unwrappedItems, ih, List.map_cons]

theorem plainItems_iff {vs : List Value} : PlainItems vs ↔ ∀ v ∈ vs, v.Plain := by
  induction vs with
  | nil => simp [PlainItems]
  | cons v vs ih => rw [PlainItems, ih, List.forall_mem_cons]

theorem unwrappedFields_length (fs : List (String × Value)) :
    (unwrappedFields fs).length = fs.length := by
  induction fs with
  | nil => rfl
  | cons f fs ih => rw [unwrappedFields, List.length_cons, List.length_cons, ih]

theorem get?_unwrappedFields (k : String) (fs : List (String × Value)) :
    Table.get? k (unwrappedFields fs) = (Table.get? k fs).map unwrapped := by
  induction fs with
  | nil => rfl
  | cons f fs ih =>
    obtain ⟨j, v⟩ := f
    by_cases h : k = j
    · simp [unwrappedFields, Table.get?, h]
    · simp [unwrappedFields, Table.get?, h, ih]

theorem plain_get? {k : String} {fs : List (String × Value)} {v : Value} (h : PlainFields fs)
    (hv : Table.get? k fs = some v) : v.Plain := by
  induction fs with
  | nil => cases hv
  | cons f fs ih =>
    obtain ⟨j, w⟩ := f
    rw [PlainFields] at h
    rw [Table.get?] at hv
    split at hv
    · cases hv
      exact h.1
    · exact ih h.2 hv

mutual

theorem toJson_unwrapped (v : Value) : v.unwrapped.toJson = v.toJson := by
  cases v with
  | array items => rw [unwrapped, toJson, toJson, toJsonItems_unwrapped items]
  | object fields => rw [unwrapped, toJson, toJson, toJsonFields_unwrapped fields]
  | node id owner fields => rw [unwrapped, toJson, toJson, toJsonFields_unwrapped fields]
  | _ => rw [unwrapped] <;> nofun

theorem toJsonItems_unwrapped (vs : List Value) :
    toJsonItems (unwrappedItems vs) = toJsonItems vs := by
  cases vs with
  | nil => rfl
  | cons v vs =>
    rw [unwrappedItems, toJsonItems, toJsonItems, toJson_unwrapped v, toJsonItems_unwrapped vs]

theorem toJsonFields_unwrapped (fs : List (String × Value)) :
    toJsonFields (unwrappedFields fs) = toJsonFields fs := by
  cases fs with
  | nil => rfl
  | cons f fs =>
    obtain ⟨k, v⟩ := f
    rw [unwrappedFields, toJsonFields, toJsonFields, toJson_unwrapped v, toJsonFields_unwrapped fs]

end

theorem jsonText_unwrapped (v : Value) : v.unwrapped.jsonText = v.jsonText := by
  rw [jsonText, jsonText, toJson_unwrapped]

mutual

theorem display_unwrapped (v : Value) : v.unwrapped.display = v.display := by
  cases v with
  | array items =>
    cases items with
    | nil => rfl
    | cons v vs =>
      rw [unwrapped, unwrappedItems, display, display, display_unwrapped v,
        displayItems_unwrapped vs]
  | object fields =>
    have h := jsonText_unwrapped (object fields)
    rw [unwrapped] at h ⊢
    rw [display, display, h]
  | node id owner fields =>
    have h := jsonText_unwrapped (node id owner fields)
    rw [unwrapped] at h ⊢
    rw [display, display, h]
  | _ => rw [unwrapped] <;> nofun

theorem displayItems_unwrapped (vs : List Value) :
    displayItems (unwrappedItems vs) = displayItems vs := by
  cases vs with
  | nil => rfl
  | cons v vs =>
    rw [unwrappedItems, displayItems, displayItems, display_unwrapped v, displayItems_unwrapped vs]

end

theorem isNull_unwrapped (v : Value) : v.unwrapped.isNull = v.isNull := by
  cases v <;> rfl

theorem truthy_unwrapped (v : Value) : v.unwrapped.truthy = v.truthy := by
  cases v <;> rfl

theorem blank_unwrapped (v : Value) : v.unwrapped.blank = v.blank := by
  cases v with
  | array items => cases items <;> rfl
  | _ => rfl

theorem number?_unwrapped (v : Value) : v.unwrapped.number? = v.number? := by
  cases v <;> rfl

mutual

theorem unwrapped_plain {v : Value} (h : v.Plain) : v.unwrapped = v := by
  cases v with
  | array items => rw [unwrapped, unwrappedItems_plain h]
  | object fields => rw [unwrapped, unwrappedFields_plain h]
  | node id owner fields => exact h.elim
  | _ => rfl

theorem unwrappedItems_plain {vs : List Value} (h : PlainItems vs) : unwrappedItems vs = vs := by
  cases vs with
  | nil => rfl
  | cons v vs =>
    rw [PlainItems] at h
    rw [unwrappedItems, unwrapped_plain h.1, unwrappedItems_plain h.2]

theorem unwrappedFields_plain {fs : List (String × Value)} (h : PlainFields fs) :
    unwrappedFields fs = fs := by
  cases fs with
  | nil => rfl
  | cons f fs =>
    obtain ⟨k, v⟩ := f
    rw [PlainFields] at h
    rw [unwrappedFields, unwrapped_plain h.1, unwrappedFields_plain h.2]

end

/-- Own properties are those of the object, as long as nothing has properties of another
kind. -/
theorem property_unwrapped {v : Value} (h : v.unwrapped.Plain) (name : String) :
    v.unwrapped.property name = (v.property name).map unwrapped := by
  cases v with
  | array items =>
    simp only [unwrapped, unwrappedItems_eq, property, List.length_map]
    split
    · rfl
    · cases Decimal.readIndex? name.toList <;> simp
  | object fields => exact get?_unwrappedFields name fields
  | node id owner fields => exact get?_unwrappedFields name fields
  | string s =>
    simp only [unwrapped, property]
    split <;> rfl
  | accessor id props view => exact h.elim
  | _ => rfl

theorem plain_property {v w : Value} {name : String} (h : v.Plain)
    (hw : v.property name = some w) : w.Plain := by
  cases v with
  | array items =>
    simp only [property] at hw
    split at hw
    · cases hw
      exact trivial
    · obtain ⟨i, -, hi⟩ := Option.bind_eq_some_iff.1 hw
      exact plainItems_iff.1 h w (List.mem_of_getElem? hi)
  | object fields => exact plain_get? h hw
  | string s =>
    simp only [property] at hw
    split at hw
    · cases hw
      exact trivial
    · cases hw
  | node id owner fields => exact h.elim
  | accessor id props view => exact h.elim
  | _ => cases hw

structure WrappedAs (v n : Value) : Prop where
  plain : v.Plain
  eq : v = n.unwrapped

namespace WrappedAs

variable {v n : Value}

theorem refl (h : v.Plain) : v.WrappedAs v := ⟨h, (unwrapped_plain h).symm⟩

theorem plain_wrapped (h : v.WrappedAs n) : n.unwrapped.Plain := by
  rw [← h.eq]
  exact h.plain

theorem plain_data (h : v.WrappedAs n) : v.unwrapped.Plain := by
  rw [unwrapped_plain h.plain]
  exact h.plain

theorem isNull (h : v.WrappedAs n) : v.isNull = n.isNull := by
  rw [h.eq, isNull_unwrapped]

theorem truthy (h : v.WrappedAs n) : v.truthy = n.truthy := by
  rw [h.eq, truthy_unwrapped]

theorem display (h : v.WrappedAs n) : v.display = n.display := by
  rw [h.eq, display_unwrapped]

theorem property (h : v.WrappedAs n) (name : String) :
    Option.Rel WrappedAs (v.property name) (n.property name) := by
  have hu := property_unwrapped h.plain_wrapped name
  rw [← h.eq] at hu
  cases hn : n.property name with
  | none =>
    rw [hu, hn]
    exact .none
  | some m =>
    rw [hn] at hu
    rw [hu]
    exact .some ⟨plain_property h.plain hu, rfl⟩

theorem items {vs ns : List Value} (h : (array vs).WrappedAs (array ns)) :
    List.Forall₂ WrappedAs vs ns := by
  obtain ⟨hp, he⟩ := h
  rw [unwrapped, unwrappedItems_eq] at he
  obtain rfl := array.inj he
  rw [List.forall₂_map_left_iff]
  have hall := plainItems_iff.1 hp
  rw [List.forall₂_same]
  exact fun n hn => ⟨hall _ (List.mem_map_of_mem hn), rfl⟩

theorem orNull {o p : Option Value} (h : Option.Rel WrappedAs o p) :
    (o.getD .null).WrappedAs (p.getD .null) := by
  cases h with
  | none => exact .refl trivial
  | some hv => exact hv

end WrappedAs

end Value

namespace Wrapping

variable (w : Wrapping)

mutual

/-- Wrapping makes nodes of objects, whatever the depth, and does nothing else. -/
theorem unwrapped_wrapAt (place : List Nat) (depth : Nat) (v : Value) :
    (w.wrapAt place depth v).unwrapped = v.unwrapped := by
  cases v with
  | array items =>
    cases depth with
    | zero => rw [wrapAt]
    | succ d => rw [wrapAt, Value.unwrapped, Value.unwrapped, unwrapped_wrapItems place d 0 items]
  | object fields =>
    cases depth with
    | zero => rw [wrapAt]
    | succ d => rw [wrapAt, Value.unwrapped, Value.unwrapped, unwrapped_wrapFields place d 0 fields]
  | _ => rw [wrapAt] <;> nofun

theorem unwrapped_wrapItems (place : List Nat) (depth i : Nat) (vs : List Value) :
    Value.unwrappedItems (w.wrapItems place depth i vs) = Value.unwrappedItems vs := by
  cases vs with
  | nil => rw [wrapItems]
  | cons v vs =>
    rw [wrapItems, Value.unwrappedItems, Value.unwrappedItems, unwrapped_wrapAt (i :: place) depth v,
      unwrapped_wrapItems place depth (i + 1) vs]

theorem unwrapped_wrapFields (place : List Nat) (depth i : Nat) (fs : List (String × Value)) :
    Value.unwrappedFields (w.wrapFields place depth i fs) = Value.unwrappedFields fs := by
  cases fs with
  | nil => rw [wrapFields]
  | cons f fs =>
    obtain ⟨k, v⟩ := f
    rw [wrapFields, Value.unwrappedFields, Value.unwrappedFields,
      unwrapped_wrapAt (i :: place) depth v, unwrapped_wrapFields place depth (i + 1) fs]

end

theorem unwrapped_wrap (depth : Nat) (v : Value) : (w.wrap depth v).unwrapped = v.unwrapped :=
  w.unwrapped_wrapAt [] depth v

theorem wrappedAs (depth : Nat) {v : Value} (h : v.Plain) : v.WrappedAs (w.wrap depth v) :=
  ⟨h, by rw [unwrapped_wrap, Value.unwrapped_plain h]⟩

end Wrapping

end Stencil
