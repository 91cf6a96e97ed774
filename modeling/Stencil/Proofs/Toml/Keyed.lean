import Stencil.Proofs.Settings.Severity
import Stencil.Toml.Read
import Mathlib.Data.String.Basic

/-!
# Keys of TOML tables

While a document is read, every table of it has its keys in order and none of them twice:
entries are only put in place or defined where nothing was. So the table that is read has
distinct keys, and so have all tables inside it that are not elements of an array.
-/

set_option autoImplicit false

namespace Stencil

namespace Table

variable {α : Type}

def InOrder (t : List (String × α)) : Prop := (keys t).Pairwise (· < ·)

theorem mem_keys_put {j k : String} {v : α} {t : List (String × α)} :
    j ∈ keys (put k v t) ↔ j = k ∨ j ∈ keys t := by
  by_cases h : j = k
  · subst h
    simp [← get?_isSome, get?_put_self]
  · simp [← get?_isSome, get?_put_of_ne h, h]

namespace InOrder

variable {t : List (String × α)}

theorem nodup (h : InOrder t) : (keys t).Nodup :=
  List.Pairwise.imp (fun hlt => ne_of_lt hlt) h

theorem put (h : InOrder t) (k : String) (v : α) : InOrder (Table.put k v t) := by
  induction t with
  | nil => exact List.pairwise_singleton _ k
  | cons e t ih =>
    obtain ⟨j, w⟩ := e
    obtain ⟨hfirst, hrest⟩ := List.pairwise_cons.1 h
    rw [Table.put]
    by_cases hkj : k = j
    · subst hkj
      rw [if_pos rfl]
      exact h
    · rw [if_neg hkj]
      by_cases hlt : k < j
      · rw [if_pos hlt]
        refine List.pairwise_cons.2 ⟨fun i hi => ?_, h⟩
        rcases List.mem_cons.1 hi with rfl | hi
        · exact hlt
        · exact lt_trans hlt (hfirst i hi)
      · rw [if_neg hlt]
        refine List.pairwise_cons.2 ⟨fun i hi => ?_, ih hrest⟩
        rcases mem_keys_put.1 hi with rfl | hi
        · exact lt_of_le_of_ne (not_lt.1 hlt) (Ne.symm hkj)
        · exact hfirst i hi

end InOrder

end Table

open Table

namespace Toml

mutual

def Keyed : Toml → Prop
  | table fs => InOrder fs ∧ KeyedFields fs
  | bool _ | int _ | float _ | string _ | array _ => True

def KeyedFields : List (String × Toml) → Prop
  | [] => True
  | (_, v) :: fs => v.Keyed ∧ KeyedFields fs

end

theorem keyedFields_iff {fs : List (String × Toml)} : KeyedFields fs ↔ ∀ f ∈ fs, f.2.Keyed := by
  induction fs with
  | nil => simp [KeyedFields]
  | cons f fs ih =>
    obtain ⟨k, v⟩ := f
    rw [KeyedFields, ih, List.forall_mem_cons]

theorem KeyedFields.get? {fs : List (String × Toml)} (h : KeyedFields fs) {k : String} {v : Toml}
    (hv : Table.get? k fs = some v) : v.Keyed :=
  keyedFields_iff.1 h (k, v) (mem_of_get? hv)

namespace Entry

mutual

def Keyed : Entry → Prop
  | value v => v.Keyed
  | table _ es => InOrder es ∧ KeyedAll es
  | tables _ _ => True

def KeyedAll : List (String × Entry) → Prop
  | [] => True
  | (_, e) :: es => e.Keyed ∧ KeyedAll es

end

theorem keyedAll_iff {es : List (String × Entry)} : KeyedAll es ↔ ∀ f ∈ es, f.2.Keyed := by
  induction es with
  | nil => simp [KeyedAll]
  | cons f es ih =>
    obtain ⟨k, e⟩ := f
    rw [KeyedAll, ih, List.forall_mem_cons]

theorem keys_finishAll (es : List (String × Entry)) : keys (finishAll es) = keys es := by
  induction es with
  | nil => rfl
  | cons f es ih =>
    obtain ⟨k, e⟩ := f
    simpa [finishAll, keys] using ih

mutual

theorem finish_keyed (e : Entry) (h : e.Keyed) : e.finish.Keyed := by
  cases e with
  | value v => exact h
  | table origin es =>
    rw [Keyed] at h
    rw [finish, Toml.Keyed, InOrder, keys_finishAll]
    exact ⟨h.1, finishAll_keyed es h.2⟩
  | tables es before =>
    rw [finish, Toml.Keyed]
    trivial
termination_by structural e

theorem finishAll_keyed (es : List (String × Entry)) (h : KeyedAll es) :
    KeyedFields (finishAll es) := by
  cases es with
  | nil => exact trivial
  | cons f es =>
    obtain ⟨k, e⟩ := f
    rw [KeyedAll] at h
    rw [finishAll, KeyedFields]
    exact ⟨finish_keyed e h.1, finishAll_keyed es h.2⟩
termination_by structural es

end

end Entry

namespace Entries

open Entry

structure Keyed (es : Entries) : Prop where
  inOrder : InOrder es
  all : KeyedAll es

theorem keyed_nil : Keyed [] := ⟨List.Pairwise.nil, trivial⟩

variable {es es' : Entries}

theorem Keyed.get? (h : Keyed es) {k : String} {e : Entry} (he : Table.get? k es = some e) :
    e.Keyed :=
  keyedAll_iff.1 h.all (k, e) (mem_of_get? he)

theorem Keyed.put (h : Keyed es) (k : String) {e : Entry} (he : e.Keyed) :
    Keyed (Table.put k e es) := by
  refine ⟨h.inOrder.put k e, keyedAll_iff.2 fun f hf => ?_⟩
  rcases mem_put hf with rfl | hf
  · exact he
  · exact keyedAll_iff.1 h.all f hf

theorem define_keyed {k : String} {v : Toml} (hv : v.Keyed) (h : Keyed es)
    (hd : define k v es = some es') : Keyed es' := by
  rw [define] at hd
  split at hd
  · cases hd
    exact h.put k hv
  · cases hd

theorem openTable_keyed {k : String} (h : Keyed es) (ho : openTable k es = some es') :
    Keyed es' := by
  rw [openTable] at ho
  split at ho
  · cases ho
    exact h.put k ⟨keyed_nil.inOrder, keyed_nil.all⟩
  · next sub hget =>
    cases ho
    have hsub : InOrder sub ∧ KeyedAll sub := h.get? hget
    exact h.put k hsub
  · cases ho

theorem openElement_keyed {k : String} (h : Keyed es) (ho : openElement k es = some es') :
    Keyed es' := by
  rw [openElement] at ho
  split at ho
  · cases ho
    exact h.put k trivial
  · cases ho
    exact h.put k trivial
  · cases ho

/-- Changing a table at a path leaves the keys of the tables above it in order. -/
theorem descend_keyed {f : Entries → Option Entries}
    (hf : ∀ {es es' : Entries}, Keyed es → f es = some es' → Keyed es') {dotted : Bool}
    {path : List String} (h : Keyed es) (hd : descend dotted f path es = some es') :
    Keyed es' := by
  induction path generalizing es es' with
  | nil => exact hf h hd
  | cons k ks ih =>
    rw [descend] at hd
    split at hd
    · obtain ⟨sub, hsub, hput⟩ := Option.bind_eq_some_iff.1 hd
      cases hput
      have hkeyed := ih keyed_nil hsub
      exact h.put k ⟨hkeyed.inOrder, hkeyed.all⟩
    · next origin sub hget =>
      split at hd
      · cases hd
      · obtain ⟨sub', hsub, hput⟩ := Option.bind_eq_some_iff.1 hd
        cases hput
        obtain ⟨hord, hall⟩ := h.get? hget
        have hkeyed := ih ⟨hord, hall⟩ hsub
        exact h.put k ⟨hkeyed.inOrder, hkeyed.all⟩
    · split at hd
      · cases hd
      · obtain ⟨sub', -, hput⟩ := Option.bind_eq_some_iff.1 hd
        cases hput
        exact h.put k trivial
    · cases hd

theorem atPath_keyed {f : String → Entries → Option Entries}
    (hf : ∀ {k : String} {es es' : Entries}, Keyed es → f k es = some es' → Keyed es')
    {dotted : Bool} {path : List String} (h : Keyed es)
    (ha : atPath dotted f path es = some es') : Keyed es' := by
  rw [atPath] at ha
  split at ha
  · cases ha
  · exact descend_keyed hf h ha

end Entries

/-! ## Reading -/

theorem readMoment_string {s : List Char} {v : Toml} (h : readMoment? s = some v) :
    ∃ t, v = string t := by
  unfold readMoment? at h
  split at h
  · obtain ⟨⟨time, r⟩, -, h⟩ := Option.bind_eq_some_iff.1 h
    dsimp only at h
    split at h
    · cases h
      exact ⟨_, rfl⟩
    · cases h
  · cases h
    exact ⟨_, rfl⟩
  · split at h
    · obtain ⟨p, -, h⟩ := Option.bind_eq_some_iff.1 h
      obtain ⟨o, -, h⟩ := Option.bind_eq_some_iff.1 h
      cases h
      exact ⟨_, rfl⟩
    · cases h

theorem fitsWord_int {i : Int} {v : Toml} (h : fitsWord i = some v) : v = int i := by
  rw [fitsWord] at h
  split at h
  · cases h
    rfl
  · cases h

theorem readInt_int {s : List Char} {v : Toml} (h : readInt? s = some v) : ∃ i, v = int i := by
  unfold readInt? at h
  split at h
  all_goals
    obtain ⟨ds, -, h⟩ := Option.bind_eq_some_iff.1 h
    exact ⟨_, fitsWord_int h⟩

theorem readFloat_float {s : List Char} {v : Toml} (h : readFloat? s = some v) :
    ∃ f, v = float f := by
  unfold readFloat? at h
  dsimp only at h
  split at h
  · cases h
    exact ⟨_, rfl⟩
  · split at h
    · cases h
      exact ⟨_, rfl⟩
    · split at h
      · cases h
      · -- with an exponent or without, and with a fraction or without
        split at h
        all_goals
          obtain ⟨e, -, h⟩ := Option.bind_eq_some_iff.1 h
          obtain ⟨w, -, h⟩ := Option.bind_eq_some_iff.1 h
          split at h
          all_goals
            obtain ⟨f, -, h⟩ := Option.bind_eq_some_iff.1 h
            cases h
            exact ⟨_, rfl⟩

theorem readBare_keyed {s : List Char} {v : Toml} (h : readBare? s = some v) : v.Keyed := by
  rw [readBare?] at h
  split at h
  · cases h
    exact trivial
  · split at h
    · cases h
      exact trivial
    · rcases Option.or_eq_some_iff.1 h with h | ⟨-, h⟩
      · rcases Option.or_eq_some_iff.1 h with h | ⟨-, h⟩
        · obtain ⟨t, rfl⟩ := readMoment_string h
          exact trivial
        · obtain ⟨i, rfl⟩ := readInt_int h
          exact trivial
      · obtain ⟨f, rfl⟩ := readFloat_float h
        exact trivial

/-- Values, and tables written in one line. Those inside an array need nothing. -/
theorem readValue_keyed (fuel : Nat) :
    (∀ {s : List Char} {v : Toml} {r : List Char}, readValue? fuel s = some (v, r) → v.Keyed) ∧
      ∀ {s : List Char} {es es' : Entries} {r : List Char}, es.Keyed →
        readFields? fuel es s = some (es', r) → es'.Keyed := by
  induction fuel with
  | zero => exact ⟨nofun, nofun⟩
  | succ fuel ih =>
    obtain ⟨ihvalue, ihfields⟩ := ih
    constructor
    · intro s v r h
      unfold readValue? at h
      split at h
      · obtain ⟨p, -, hp⟩ := Option.bind_eq_some_iff.1 h
        cases hp
        exact trivial
      · obtain ⟨p, -, hp⟩ := Option.bind_eq_some_iff.1 h
        cases hp
        exact trivial
      · obtain ⟨p, -, hp⟩ := Option.bind_eq_some_iff.1 h
        cases hp
        exact trivial
      · obtain ⟨p, hes, hp⟩ := Option.bind_eq_some_iff.1 h
        cases hp
        have hkeyed := ihfields Entries.keyed_nil hes
        exact Entry.finish_keyed (.table .dotted p.1) ⟨hkeyed.inOrder, hkeyed.all⟩
      · obtain ⟨w, hw, hv⟩ := Option.map_eq_some_iff.1 h
        cases hv
        exact readBare_keyed hw
    · intro s es es' r hes h
      rw [readFields?] at h
      obtain ⟨t, -, h⟩ := Option.bind_eq_some_iff.1 h
      split at h
      · cases h
        exact hes
      · obtain ⟨⟨path, t'⟩, -, h⟩ := Option.bind_eq_some_iff.1 h
        dsimp only at h
        split at h
        · obtain ⟨⟨v, t''⟩, hv, h⟩ := Option.bind_eq_some_iff.1 h
          obtain ⟨es'', hdef, h⟩ := Option.bind_eq_some_iff.1 h
          have hes'' : Entries.Keyed es'' :=
            Entries.atPath_keyed (fun hk hd => Entries.define_keyed (ihvalue hv) hk hd) hes hdef
          obtain ⟨u, -, h⟩ := Option.bind_eq_some_iff.1 h
          split at h
          · exact ihfields hes'' h
          · cases h
            exact hes''
          · cases h
        · cases h

theorem readEntry_keyed {p p' : Progress} {s r : List Char} (hp : p.entries.Keyed)
    (h : readEntry? p s = some (p', r)) : p'.entries.Keyed := by
  unfold readEntry? at h
  split at h
  · obtain ⟨⟨path, t⟩, -, h⟩ := Option.bind_eq_some_iff.1 h
    dsimp only at h
    split at h
    · obtain ⟨es, hes, h⟩ := Option.bind_eq_some_iff.1 h
      obtain ⟨u, -, h⟩ := Option.bind_eq_some_iff.1 h
      cases h
      exact Entries.atPath_keyed Entries.openElement_keyed hp hes
    · cases h
  · obtain ⟨⟨path, t⟩, -, h⟩ := Option.bind_eq_some_iff.1 h
    dsimp only at h
    split at h
    · obtain ⟨es, hes, h⟩ := Option.bind_eq_some_iff.1 h
      obtain ⟨u, -, h⟩ := Option.bind_eq_some_iff.1 h
      cases h
      exact Entries.atPath_keyed Entries.openTable_keyed hp hes
    · cases h
  · obtain ⟨⟨path, t⟩, -, h⟩ := Option.bind_eq_some_iff.1 h
    dsimp only at h
    split at h
    · obtain ⟨⟨v, t'⟩, hv, h⟩ := Option.bind_eq_some_iff.1 h
      obtain ⟨es, hes, h⟩ := Option.bind_eq_some_iff.1 h
      obtain ⟨u, -, h⟩ := Option.bind_eq_some_iff.1 h
      cases h
      have hkeyed : v.Keyed := (readValue_keyed _).1 hv
      refine Entries.descend_keyed (fun hk hd => ?_) hp hes
      exact Entries.atPath_keyed (fun hk hd => Entries.define_keyed hkeyed hk hd) hk hd
    · cases h

theorem readEntries_keyed {fuel : Nat} {p p' : Progress} {s : List Char} (hp : p.entries.Keyed)
    (h : readEntries? fuel p s = some p') : p'.entries.Keyed := by
  induction fuel generalizing p s with
  | zero => cases h
  | succ fuel ih =>
    rw [readEntries?] at h
    obtain ⟨t, -, h⟩ := Option.bind_eq_some_iff.1 h
    split at h
    · cases h
      exact hp
    · obtain ⟨⟨q, r⟩, hq, h⟩ := Option.bind_eq_some_iff.1 h
      exact ih (readEntry_keyed hp hq) h

/-- A document that can be read has its keys in order, in each of its tables. -/
theorem read_keyed {text : String} {fs : List (String × Toml)} (h : read? text = some fs) :
    (table fs).Keyed := by
  rw [read?] at h
  obtain ⟨p, hp, h⟩ := Option.bind_eq_some_iff.1 h
  cases h
  have hkeyed := readEntries_keyed Entries.keyed_nil hp
  exact Entry.finish_keyed (.table .opened p.entries) ⟨hkeyed.inOrder, hkeyed.all⟩

end Toml

end Stencil
