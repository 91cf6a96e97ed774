import Stencil.Proofs.Format.Standard

/-!
# What wrapping makes of a value

Wrapping goes down arrays and objects together with its depth and stops where that is
used up or where it meets behaviour. So it reaches the same places as the value has, makes
a node of every object above that level, and finds nothing left to do when it is run again.
What can be seen of a value without asking it stays as it was.
-/

set_option autoImplicit false

namespace Stencil

namespace Value

/-- What a value is to its users, who cannot tell a node from another accessor. -/
inductive Kind
  | null
  | bool
  | int
  | float
  | string
  | array
  | object
  | getter
  | lambda
  | accessor
deriving DecidableEq

def kind : Value → Kind
  | null => .null
  | bool _ => .bool
  | int _ => .int
  | float _ => .float
  | string _ => .string
  | array _ => .array
  | object _ => .object
  | getter _ => .getter
  | lambda _ => .lambda
  | accessor .. | node .. => .accessor

inductive Turn
  | item (i : Nat)
  | field (name : String)

def under (turn : Turn) : Value → Option Value
  | array items => match turn with
    | .item i => items[i]?
    | .field _ => none
  | object fields => match turn with
    | .item _ => none
    | .field k => Table.get? k fields
  | _ => none

def within (turn : Turn) : Value → Option Value
  | node _ _ fields => match turn with
    | .item _ => none
    | .field k => Table.get? k fields
  | v => v.under turn

def underPath : (path : List Turn) → Value → Option Value
  | [], v => some v
  | turn :: path, v => (v.under turn).bind (underPath path)

def withinPath : (path : List Turn) → Value → Option Value
  | [], v => some v
  | turn :: path, v => (v.within turn).bind (withinPath path)

structure WrittenAlike (v u : Value) : Prop where
  json : v.toJson = u.toJson
  display : v.display = u.display

structure SeenAlike (v u : Value) : Prop extends WrittenAlike v u where
  truthy : v.truthy = u.truthy
  typeName : v.typeName = u.typeName
  length : ∀ args, Standard.formatters.apply "length" v args =
    Standard.formatters.apply "length" u args
  property : ∀ name, Option.Rel WrittenAlike (v.property name) (u.property name)

theorem WrittenAlike.of_unwrapped {v u : Value} (h : v.unwrapped = u.unwrapped) :
    v.WrittenAlike u where
  json := by rw [← toJson_unwrapped v, h, toJson_unwrapped]
  display := by rw [← display_unwrapped v, h, display_unwrapped]

theorem typeName_unwrapped (v : Value) : v.unwrapped.typeName = v.typeName := by
  cases v <;> rfl

theorem length_unwrapped (v : Value) :
    Standard.length v.unwrapped = Standard.length v := by
  cases v with
  | array items => exact congrArg count (Standard.lengthOf_unwrapped (array items))
  | object fields => exact congrArg count (Standard.lengthOf_unwrapped (object fields))
  | node id owner fields => exact congrArg count (Standard.lengthOf_unwrapped (node id owner fields))
  | _ => rfl

end Value

namespace Wrapping

open Value

variable (w : Wrapping)

theorem wrapAt_zero (place : List Nat) (v : Value) : w.wrapAt place 0 v = v := by
  cases v <;> rfl

def Wraps (depth : Nat) (v u : Value) : Prop := ∃ place, v = w.wrapAt place depth u

variable {w}

theorem Wraps.refl (v : Value) : w.Wraps 0 v v := ⟨[], (w.wrapAt_zero [] v).symm⟩

theorem Wraps.written {depth : Nat} {v u : Value} (h : w.Wraps depth v u) : v.WrittenAlike u := by
  obtain ⟨place, rfl⟩ := h
  exact .of_unwrapped (w.unwrapped_wrapAt place depth u)

theorem wraps_same (o : Option Value) : Option.Rel (w.Wraps 0) o o := by
  cases o with
  | none => exact .none
  | some v => exact .some (.refl v)

theorem rel_imp {R S : Value → Value → Prop} (h : ∀ v u, R v u → S v u) {o p : Option Value}
    (hr : Option.Rel R o p) : Option.Rel S o p := by
  cases hr with
  | none => exact .none
  | some hv => exact .some (h _ _ hv)

theorem wraps_items (place : List Nat) (depth i : Nat) (vs : List Value) (j : Nat) :
    Option.Rel (w.Wraps depth) (w.wrapItems place depth i vs)[j]? vs[j]? := by
  induction vs generalizing i j with
  | nil => exact .none
  | cons v vs ih =>
    rw [wrapItems]
    cases j with
    | zero => exact .some ⟨i :: place, rfl⟩
    | succ j => exact ih (i + 1) j

theorem wraps_fields (place : List Nat) (depth i : Nat) (fs : List (String × Value))
    (k : String) :
    Option.Rel (w.Wraps depth) (Table.get? k (w.wrapFields place depth i fs)) (Table.get? k fs) := by
  induction fs generalizing i with
  | nil => exact .none
  | cons f fs ih =>
    obtain ⟨j, v⟩ := f
    rw [wrapFields, Table.get?, Table.get?]
    split
    · exact .some ⟨i :: place, rfl⟩
    · exact ih (i + 1)

theorem kind_wrapAt (place : List Nat) (depth : Nat) (v : Value) :
    (w.wrapAt place depth v).kind =
      if v.kind = .object ∧ 0 < depth then .accessor else v.kind := by
  cases v <;> cases depth <;> rfl

/-- Wrapping leaves alone what is neither an array nor an object. -/
theorem wrapAt_other (place : List Nat) (depth : Nat) {v : Value} (ha : v.kind ≠ .array)
    (ho : v.kind ≠ .object) : w.wrapAt place depth v = v := by
  cases v with
  | array items => exact absurd rfl ha
  | object fields => exact absurd rfl ho
  | _ => rfl

theorem wraps_of_rel {depth : Nat} {o : Option Value} {u : Value}
    (h : Option.Rel (w.Wraps depth) o (some u)) : ∃ v, o = some v ∧ w.Wraps depth v u := by
  cases h with
  | some hv => exact ⟨_, rfl, hv⟩

/-- A turn down an array or an object uses one level of the depth. -/
theorem under_wrapAt {turn : Turn} {v u : Value} (h : v.under turn = some u) (place : List Nat)
    (depth : Nat) :
    ∃ u', (w.wrapAt place depth v).within turn = some u' ∧ w.Wraps (depth - 1) u' u := by
  cases depth with
  | zero =>
    refine ⟨u, ?_, .refl u⟩
    rw [wrapAt_zero, ← h]
    cases v with
    | node id owner fields => cases h
    | _ => rfl
  | succ d =>
    cases v with
    | array items =>
      cases turn with
      | item i =>
        have hi := wraps_items (w := w) place d 0 items i
        rw [show items[i]? = some u from h] at hi
        exact wraps_of_rel hi
      | field k => cases h
    | object fields =>
      cases turn with
      | item i => cases h
      | field k =>
        have hk := wraps_fields (w := w) place d 0 fields k
        rw [show Table.get? k fields = some u from h] at hk
        exact wraps_of_rel hk
    | _ => cases h

theorem underPath_wrapAt {path : List Turn} {v u : Value} (h : v.underPath path = some u)
    (place : List Nat) (depth : Nat) :
    ∃ u', (w.wrapAt place depth v).withinPath path = some u' ∧
      w.Wraps (depth - path.length) u' u := by
  induction path generalizing v place depth with
  | nil =>
    cases h
    exact ⟨_, rfl, place, rfl⟩
  | cons turn path ih =>
    obtain ⟨x, hx, hu⟩ := Option.bind_eq_some_iff.1 h
    obtain ⟨x', hx', place', rfl⟩ := under_wrapAt (w := w) hx place depth
    obtain ⟨u', hu', hw⟩ := ih hu place' (depth - 1)
    refine ⟨u', ?_, ?_⟩
    · rw [withinPath, hx', Option.bind_some, hu']
    · rwa [List.length_cons, Nat.add_comm, ← Nat.sub_sub]

/-- Each turn down is there as it was, and what it leads to is wrapped to some depth. -/
theorem within_wrapAt (turn : Turn) (place : List Nat) (depth : Nat) (v : Value) :
    Option.Rel (fun a b => ∃ d, w.Wraps d a b) ((w.wrapAt place depth v).within turn)
      (v.within turn) := by
  cases depth with
  | zero =>
    rw [wrapAt_zero]
    exact rel_imp (fun _ _ h => ⟨0, h⟩) (wraps_same _)
  | succ d =>
    cases v with
    | array items =>
      cases turn with
      | item i => exact rel_imp (fun _ _ h => ⟨d, h⟩) (wraps_items place d 0 items i)
      | field k => exact .none
    | object fields =>
      cases turn with
      | item i => exact .none
      | field k => exact rel_imp (fun _ _ h => ⟨d, h⟩) (wraps_fields place d 0 fields k)
    | _ => exact rel_imp (fun _ _ h => ⟨0, h⟩) (wraps_same _)

theorem withinPath_wrapAt (path : List Turn) (place : List Nat) (depth : Nat) (v : Value) :
    ((w.wrapAt place depth v).withinPath path).isSome = (v.withinPath path).isSome := by
  induction path generalizing place depth v with
  | nil => rfl
  | cons turn path ih =>
    have hturn := within_wrapAt (w := w) turn place depth v
    rw [withinPath, withinPath]
    generalize (w.wrapAt place depth v).within turn = o at hturn ⊢
    generalize v.within turn = p at hturn ⊢
    cases hturn with
    | none => rfl
    | some h =>
      obtain ⟨d, place', rfl⟩ := h
      exact ih place' d _

mutual

/-- A second wrapping no deeper than the first comes only to what is a node by then. -/
theorem wrapAt_wrapAt (w' : Wrapping) (place place' : List Nat) {m n : Nat} (h : m ≤ n)
    (v : Value) : w'.wrapAt place' m (w.wrapAt place n v) = w.wrapAt place n v := by
  cases m with
  | zero => exact w'.wrapAt_zero place' _
  | succ m =>
    obtain ⟨n, rfl⟩ : ∃ k, n = k + 1 := ⟨n - 1, by omega⟩
    cases v with
    | array items =>
      rw [wrapAt, wrapAt, wrapItems_wrapItems w' place place' (Nat.le_of_succ_le_succ h)]
    | _ => rfl

theorem wrapItems_wrapItems (w' : Wrapping) (place place' : List Nat) {m n : Nat} (h : m ≤ n)
    {i j : Nat} (vs : List Value) :
    w'.wrapItems place' m j (w.wrapItems place n i vs) = w.wrapItems place n i vs := by
  cases vs with
  | nil => rfl
  | cons v vs =>
    rw [wrapItems, wrapItems, wrapAt_wrapAt w' _ _ h v, wrapItems_wrapItems w' _ _ h vs]

end

structure Measured (w : Wrapping) (n : Nat) (v : Value) : Prop where
  /-- Down a path through arrays and objects an object above the depth is an accessor,
  and everything is otherwise of the kind it was. -/
  kinds : ∀ path u, v.underPath path = some u → ∃ u', (w.wrap n v).withinPath path = some u' ∧
    u'.kind = if u.kind = .object ∧ path.length < n then .accessor else u.kind
  /-- From the depth on, and wherever there is no array and no object, a value is left as
  it was with all that is in it. -/
  kept : ∀ path u, v.underPath path = some u →
    (u.kind = .array ∨ u.kind = .object → n ≤ path.length) →
    (w.wrap n v).withinPath path = some u
  /-- Nothing is put in and nothing is left out. -/
  places : ∀ path, ((w.wrap n v).withinPath path).isSome = (v.withinPath path).isSome
  /-- A second wrapping no deeper leaves all the nodes of the first as they are. -/
  again : ∀ (w' : Wrapping) (m : Nat), m ≤ n → w'.wrap m (w.wrap n v) = w.wrap n v

/-- Wrapping goes exactly as deep as it is told, and is done after one time. -/
theorem wrap_measured (w : Wrapping) (n : Nat) (v : Value) : w.Measured n v where
  kinds path u h := by
    obtain ⟨u', hu', place, rfl⟩ := underPath_wrapAt (w := w) h [] n
    exact ⟨_, hu', by simp only [kind_wrapAt, Nat.sub_pos_iff_lt]⟩
  kept path u h hk := by
    obtain ⟨u', hu', place, rfl⟩ := underPath_wrapAt (w := w) h [] n
    rw [wrap, hu']
    by_cases hn : n ≤ path.length
    · rw [Nat.sub_eq_zero_of_le hn, wrapAt_zero]
    · have ha : u.kind ≠ .array := fun ha => hn (hk (.inl ha))
      have ho : u.kind ≠ .object := fun ho => hn (hk (.inr ho))
      rw [wrapAt_other place _ ha ho]
  places path := withinPath_wrapAt path [] n v
  again w' _ h := wrapAt_wrapAt w' [] [] h v

/-- Arrays use up the depth, so the object below two of them is left for neither wrapping. -/
example (w w' : Wrapping) : w'.wrap 2 (w.wrap 2 (.array [.array [.object []]])) =
    .array [.array [.object []]] := rfl

/-- Each property is there as it was, and what it holds is written alike. -/
theorem property_wrapAt (place : List Nat) (depth : Nat) (v : Value) (name : String) :
    Option.Rel WrittenAlike ((w.wrapAt place depth v).property name) (v.property name) := by
  have hsame : ∀ o : Option Value, Option.Rel WrittenAlike o o :=
    fun o => rel_imp (fun _ _ h => h.written) (wraps_same (w := w) o)
  cases depth with
  | zero => rw [wrapAt_zero]; exact hsame _
  | succ d =>
    cases v with
    | array items =>
      have hlen : (w.wrapItems place d 0 items).length = items.length := by
        have h := congrArg List.length (w.unwrapped_wrapItems place d 0 items)
        rwa [unwrappedItems_eq, unwrappedItems_eq, List.length_map, List.length_map] at h
      rw [wrapAt, Value.property, Value.property, hlen]
      split
      · exact hsame _
      · cases Decimal.readIndex? name.toList with
        | none => exact .none
        | some i => exact rel_imp (fun _ _ h => h.written) (wraps_items place d 0 items i)
    | object fields => exact rel_imp (fun _ _ h => h.written) (wraps_fields place d 0 fields name)
    | _ => exact hsame _

/-- What is seen of a value does not tell whether it is wrapped. -/
theorem wrap_unseen (w : Wrapping) (n : Nat) (v : Value) : (w.wrap n v).SeenAlike v where
  toWrittenAlike := .of_unwrapped (w.unwrapped_wrap n v)
  truthy := by rw [← truthy_unwrapped, unwrapped_wrap, truthy_unwrapped]
  typeName := by rw [← typeName_unwrapped, unwrapped_wrap, typeName_unwrapped]
  length _ := by
    change Standard.length _ = Standard.length _
    rw [← length_unwrapped, unwrapped_wrap, length_unwrapped]
  property := property_wrapAt [] n v

end Wrapping

end Stencil
