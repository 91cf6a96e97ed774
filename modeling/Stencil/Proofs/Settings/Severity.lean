import Stencil.Settings.Severity
import Mathlib.Data.List.Induction
import Mathlib.Data.List.Nodup

/-!
# The severity of a code

A table of severities is read as a map from keys. What it says of a code is told by
the longest key that is the beginning of the code, and the order of the table does
not matter as long as no two of its keys differ in the case of letters alone. Setting
a key changes what is said of the codes that it is the longest such key of, and of no
others.
-/

set_option autoImplicit false

namespace Stencil

open Severities

/-- What a map of keys says of a code: what the longest key has that fits the code,
or error if none does. -/
inductive Severity.Resolves (entry : String → Option Severity) (code : String) :
    Severity → Prop
  | key {k : String} {s : Severity} : entry k = some s → fits code k →
      (∀ j, (entry j).isSome → fits code j → j.length ≤ k.length) → Resolves entry code s
  | none : (∀ j, (entry j).isSome → ¬ fits code j) → Resolves entry code .error

namespace Severities

def Apart (keys : List String) : Prop :=
  ∀ j ∈ keys, ∀ k ∈ keys, upperAscii j = upperAscii k → j = k

instance (keys : List String) : Decidable (Apart keys) :=
  inferInstanceAs (Decidable (∀ _ ∈ keys, ∀ _ ∈ keys, _ → _))

theorem upperAscii_length (s : String) : (upperAscii s).length = s.length := by
  rw [upperAscii, List.length_map, String.length_toList]

theorem fits_iff {code key : String} : fits code key ↔ upperAscii key <+: upperAscii code := by
  rw [fits, List.isPrefixOf_iff_prefix]

theorem fits_self (code : String) : fits code code := fits_iff.2 (List.prefix_refl _)

theorem fits_length {code key : String} (h : fits code key) : key.length ≤ code.length := by
  have hle := (fits_iff.1 h).length_le
  rwa [upperAscii_length, upperAscii_length] at hle

/-- Beginnings of one code that are as long are the same up to case. -/
theorem fits_same {code j k : String} (hj : fits code j) (hk : fits code k)
    (h : j.length = k.length) : upperAscii j = upperAscii k := by
  have hl : (upperAscii j).length = (upperAscii k).length := by
    rw [upperAscii_length, upperAscii_length, h]
  exact (List.prefix_of_prefix_length_le (fits_iff.1 hj) (fits_iff.1 hk) (Nat.le_of_eq hl)).eq_of_length
    hl

end Severities

theorem Severity.Resolves.unique {entry : String → Option Severity} {keys : List String}
    (hkeys : ∀ k, (entry k).isSome → k ∈ keys) (hapart : Apart keys) {code : String}
    {s t : Severity} (hs : Resolves entry code s) (ht : Resolves entry code t) : s = t := by
  cases hs with
  | @key k s hk hfit hmax =>
    have hsome : (entry k).isSome := by rw [hk]; rfl
    cases ht with
    | @key j t hj hfit' hmax' =>
      have hsome' : (entry j).isSome := by rw [hj]; rfl
      have hle := hmax j hsome' hfit'
      have hle' := hmax' k hsome hfit
      have heq : k = j := by
        apply hapart k (hkeys k hsome) j (hkeys j hsome')
        exact fits_same hfit hfit' (Nat.le_antisymm hle' hle)
      subst heq
      exact Option.some.inj (hk.symm.trans hj)
    | none hno => exact absurd hfit (hno k hsome)
  | none hno =>
    cases ht with
    | @key j t hj hfit' _ => exact absurd hfit' (hno j (by rw [hj]; rfl))
    | none _ => rfl

namespace Table

variable {α : Type}

theorem get?_isSome {k : String} {t : List (String × α)} : (get? k t).isSome ↔ k ∈ keys t := by
  induction t with
  | nil => simp [get?, keys]
  | cons e t ih =>
    obtain ⟨j, v⟩ := e
    by_cases h : k = j
    · simp [get?, keys, h]
    · have hk : k ∈ keys ((j, v) :: t) ↔ k ∈ keys t := by simp [keys, h]
      rw [hk, ← ih, get?, if_neg h]

theorem get?_append (k : String) (s t : List (String × α)) :
    get? k (s ++ t) = (get? k s).or (get? k t) := by
  induction s with
  | nil => rfl
  | cons e s ih =>
    obtain ⟨j, v⟩ := e
    by_cases h : k = j
    · simp [get?, h]
    · simp [get?, h, ih]

theorem get?_filter {p : String → Bool} {k : String} (h : p k) (t : List (String × α)) :
    get? k (t.filter fun e => p e.1) = get? k t := by
  induction t with
  | nil => rfl
  | cons e t ih =>
    obtain ⟨j, v⟩ := e
    rw [List.filter_cons]
    by_cases hp : p j
    · rw [if_pos hp, get?, get?, ih]
    · have hne : k ≠ j := fun he => hp (he ▸ h)
      rw [if_neg hp, get?, if_neg hne, ih]

end Table

namespace Severities

def Longest (es : List (String × Severity)) : Option (String × Severity) → Prop
  | none => es = []
  | some b => Table.get? b.1 es = some b.2 ∧ ∀ e ∈ es, e.1.length ≤ b.1.length

theorem Longest.step {es : List (String × Severity)} {b : Option (String × Severity)}
    (h : Longest es b) (e : String × Severity) : Longest (es ++ [e]) (longer b e) := by
  cases b with
  | none =>
    obtain rfl : es = [] := h
    exact ⟨by simp [Table.get?], by simp⟩
  | some b =>
    obtain ⟨hget, hmax⟩ := h
    by_cases hlt : b.1.length < e.1.length
    · have hnone : Table.get? e.1 es = none := by
        rw [← Option.not_isSome_iff_eq_none, Table.get?_isSome]
        intro hmem
        obtain ⟨f, hf, hfe⟩ := List.mem_map.1 hmem
        have hle := hmax f hf
        rw [hfe] at hle
        omega
      rw [longer, if_pos hlt]
      constructor
      · rw [Table.get?_append, hnone]
        simp [Table.get?]
      · intro f hf
        rcases List.mem_append.1 hf with hf | hf
        · exact Nat.le_trans (hmax f hf) (Nat.le_of_lt hlt)
        · exact Nat.le_of_eq (congrArg (·.1.length) (List.mem_singleton.1 hf))
    · rw [longer, if_neg hlt]
      constructor
      · rw [Table.get?_append, hget]
        rfl
      · intro f hf
        rcases List.mem_append.1 hf with hf | hf
        · exact hmax f hf
        · rw [List.mem_singleton.1 hf]
          exact Nat.le_of_not_lt hlt

theorem foldl_longest (es : List (String × Severity)) : Longest es (es.foldl longer none) := by
  induction es using List.reverseRecOn with
  | nil => rfl
  | append_singleton es e ih =>
    rw [List.foldl_append]
    exact ih.step e

theorem severityOf_resolves (t : Severities) (code : String) :
    Severity.Resolves (fun k => Table.get? k t) code (t.severityOf code) := by
  have hlong := foldl_longest (t.filter fun e => fits code e.1)
  have hmem : ∀ {k : String}, (Table.get? k t).isSome → fits code k →
      ∃ e ∈ t.filter fun e => fits code e.1, e.1 = k := by
    intro k hk hfit
    obtain ⟨e, he, rfl⟩ := List.mem_map.1 (Table.get?_isSome.1 hk)
    exact ⟨e, List.mem_filter.2 ⟨he, hfit⟩, rfl⟩
  cases hget : Table.get? code t with
  | some s =>
    have hs : t.severityOf code = s := by rw [severityOf, hget]
    rw [hs]
    exact .key hget (fits_self code) fun j _ hfit => fits_length hfit
  | none =>
    have hs : t.severityOf code = ((best? t code).map Prod.snd).getD .error := by
      rw [severityOf, hget]
    rw [hs, best?]
    cases hbest : (t.filter fun e => fits code e.1).foldl longer none with
    | none =>
      rw [hbest] at hlong
      apply Severity.Resolves.none
      intro k hk hfit
      obtain ⟨e, he, -⟩ := hmem hk hfit
      rw [show t.filter (fun e => fits code e.1) = [] from hlong] at he
      cases he
    | some b =>
      rw [hbest] at hlong
      obtain ⟨hb, hmax⟩ := hlong
      have hfit : fits code b.1 := by
        obtain ⟨e, he, heb⟩ := List.mem_map.1 (Table.get?_isSome.1 (by rw [hb]; rfl))
        rw [← heb]
        exact (List.mem_filter.1 he).2
      rw [Table.get?_filter (p := fits code) hfit] at hb
      apply Severity.Resolves.key hb hfit
      intro k hk hfit'
      obtain ⟨e, he, rfl⟩ := hmem hk hfit'
      exact hmax e he

theorem resolves_iff {t : Severities} (h : Apart (Table.keys t)) {code : String} {s : Severity} :
    Severity.Resolves (fun k => Table.get? k t) code s ↔ t.severityOf code = s := by
  constructor
  · exact (severityOf_resolves t code).unique (fun k => Table.get?_isSome.1) h
  · rintro rfl
    exact severityOf_resolves t code

end Severities

namespace Table

variable {α : Type}

theorem get?_of_mem {t : List (String × α)} (h : (keys t).Nodup) {k : String} {v : α}
    (hmem : (k, v) ∈ t) : get? k t = some v := by
  induction t with
  | nil => cases hmem
  | cons e t ih =>
    obtain ⟨hnot, hrest⟩ := List.nodup_cons.1 h
    rcases List.mem_cons.1 hmem with rfl | hmem
    · exact if_pos rfl
    · have hne : k ≠ e.1 := by
        rintro rfl
        exact hnot (List.mem_map.2 ⟨_, hmem, rfl⟩)
      rw [get?, if_neg hne]
      exact ih hrest hmem

/-- With one entry a key it does not matter in which order a table is searched. -/
theorem get?_perm {s t : List (String × α)} (hp : s.Perm t) (h : (keys t).Nodup) (k : String) :
    get? k s = get? k t := by
  have hs : (keys s).Nodup := (hp.map Prod.fst).nodup_iff.2 h
  cases ht : get? k t with
  | some v => exact get?_of_mem hs (hp.mem_iff.2 (mem_of_get? ht))
  | none =>
    rw [← Option.not_isSome_iff_eq_none, get?_isSome] at ht ⊢
    rwa [keys, (hp.map Prod.fst).mem_iff]

end Table

namespace Severities

def Distinct (keys : List String) : Prop := (keys.map upperAscii).Nodup

instance (keys : List String) : Decidable (Distinct keys) :=
  inferInstanceAs (Decidable (List.Nodup _))

theorem Distinct.apart {keys : List String} (h : Distinct keys) : Apart keys :=
  fun _ hj _ hk => List.inj_on_of_nodup_map h hj hk

theorem Distinct.nodup {keys : List String} (h : Distinct keys) : keys.Nodup :=
  List.Nodup.of_map _ h

/-- The search of a table entry by entry, which ends early at a key that is all of
the code. `found` is the longest key so far. -/
def search (code : String) : (found : Option (String × Severity)) → Severities → Severity
  | found, [] => (found.map Prod.snd).getD .error
  | found, e :: es =>
    if upperAscii e.1 = upperAscii code then e.2
    else search code (if fits code e.1 then longer found e else found) es

/-- Where no key is all of the code the search comes to the longest key that fits. -/
theorem search_partial {code : String} {es : Severities}
    (h : ∀ e ∈ es, upperAscii e.1 ≠ upperAscii code) (found : Option (String × Severity)) :
    search code found es =
      (((es.filter fun e => fits code e.1).foldl longer found).map Prod.snd).getD .error := by
  induction es generalizing found with
  | nil => rfl
  | cons e es ih =>
    obtain ⟨he, hes⟩ := List.forall_mem_cons.1 h
    rw [search, if_neg he, ih hes, List.filter_cons]
    split <;> rfl

theorem search_whole {code : String} {es : Severities}
    (h : ∃ e ∈ es, upperAscii e.1 = upperAscii code) (found : Option (String × Severity)) :
    ∃ e ∈ es, upperAscii e.1 = upperAscii code ∧ search code found es = e.2 := by
  induction es generalizing found with
  | nil =>
    obtain ⟨e, he, -⟩ := h
    cases he
  | cons e es ih =>
    by_cases heq : upperAscii e.1 = upperAscii code
    · exact ⟨e, List.mem_cons_self, heq, by rw [search, if_pos heq]⟩
    · obtain ⟨e', he', heq'⟩ := h
      have hmem : e' ∈ es := by
        rcases List.mem_cons.1 he' with rfl | hmem
        · exact absurd heq' heq
        · exact hmem
      obtain ⟨f, hf, hfeq, hs⟩ := ih ⟨e', hmem, heq'⟩
        (if fits code e.1 then longer found e else found)
      exact ⟨f, List.mem_cons_of_mem _ hf, hfeq, by rw [search, if_neg heq, hs]⟩

theorem search_severityOf {t : Severities} (h : Distinct (Table.keys t)) (code : String) :
    search code none t = t.severityOf code := by
  by_cases hw : ∃ e ∈ t, upperAscii e.1 = upperAscii code
  · obtain ⟨e, he, heq, hs⟩ := search_whole hw none
    have hfit : fits code e.1 := fits_iff.2 (heq ▸ List.prefix_refl _)
    have hlen : e.1.length = code.length := by
      rw [← upperAscii_length, heq, upperAscii_length]
    have hres : Severity.Resolves (fun k => Table.get? k t) code e.2 := by
      apply Severity.Resolves.key (Table.get?_of_mem h.nodup he) hfit
      intro j _ hj
      rw [hlen]
      exact fits_length hj
    rw [hs, (resolves_iff h.apart).1 hres]
  · have hno : ∀ e ∈ t, upperAscii e.1 ≠ upperAscii code := fun e he heq => hw ⟨e, he, heq⟩
    have hget : Table.get? code t = none := by
      rw [← Option.not_isSome_iff_eq_none, Table.get?_isSome]
      intro hk
      obtain ⟨e, he, rfl⟩ := List.mem_map.1 hk
      exact hno e he rfl
    rw [search_partial hno, severityOf, hget]
    rfl

theorem severityOf_perm {t u : Severities} (h : Distinct (Table.keys t)) (hp : u.Perm t)
    (code : String) : u.severityOf code = t.severityOf code := by
  have hu : Distinct (Table.keys u) :=
    ((hp.map Prod.fst).map upperAscii).nodup_iff.2 h
  have hget : (fun k => Table.get? k u) = fun k => Table.get? k t :=
    funext (Table.get?_perm hp h.nodup)
  apply (resolves_iff hu.apart).1
  rw [hget]
  exact severityOf_resolves t code

def Leads (t : Severities) (k code : String) : Prop :=
  fits code k ∧ ∀ j ∈ Table.keys t, fits code j → j.length ≤ k.length

instance (t : Severities) (k code : String) : Decidable (t.Leads k code) :=
  inferInstanceAs (Decidable (_ ∧ _))

theorem resolves_set {t : Severities} {k code : String} (h : t.Leads k code) (s : Severity) :
    Severity.Resolves (fun j => Table.get? j (t.set k s)) code s := by
  apply Severity.Resolves.key (Table.get?_put_self k s t) h.1
  intro j hj hfit
  by_cases hjk : j = k
  · exact Nat.le_of_eq (congrArg String.length hjk)
  · have hj' : (Table.get? j t).isSome := by rwa [← Table.get?_put_of_ne hjk s t]
    exact h.2 j (Table.get?_isSome.1 hj') hfit

theorem resolves_set_of_not {t : Severities} {k code : String} (h : ¬ t.Leads k code)
    {r : Severity} (hr : Severity.Resolves (fun j => Table.get? j t) code r) (s : Severity) :
    Severity.Resolves (fun j => Table.get? j (t.set k s)) code r := by
  have hset : ∀ {j : String}, j ≠ k → Table.get? j (t.set k s) = Table.get? j t :=
    fun hj => Table.get?_put_of_ne hj s t
  cases hr with
  | @key l r hl hfit hmax =>
    have hle : ∀ j ∈ Table.keys t, fits code j → j.length ≤ l.length :=
      fun j hj => hmax j (Table.get?_isSome.2 hj)
    have hlk : l ≠ k := by
      rintro rfl
      exact h ⟨hfit, hle⟩
    refine .key ((hset hlk).trans hl) hfit ?_
    intro j hj hfit'
    by_cases hjk : j = k
    · subst hjk
      by_contra hlt
      exact h ⟨hfit', fun i hi hfi => Nat.le_trans (hle i hi hfi) (Nat.le_of_not_le hlt)⟩
    · exact hmax j (by rwa [← hset hjk]) hfit'
  | none hno =>
    have hnone : ∀ j ∈ Table.keys t, ¬ fits code j :=
      fun j hj => hno j (Table.get?_isSome.2 hj)
    refine .none ?_
    intro j hj hfit
    by_cases hjk : j = k
    · subst hjk
      exact h ⟨hfit, fun i hi hfi => absurd hfi (hnone i hi)⟩
    · exact hno j (by rwa [← hset hjk]) hfit

structure LongestPrefix (t : Severities) : Prop where
  /-- The longest key that fits a code is the one that counts. -/
  longest : ∀ code s,
    Severity.Resolves (fun k => Table.get? k t) code s ↔ t.severityOf code = s
  /-- The entries may stand in any order. -/
  unordered : ∀ u : Severities, u.Perm t → ∀ code, u.severityOf code = t.severityOf code
  /-- They may be searched in any order, up to a key that is all of the code. -/
  searched : ∀ u : Severities, u.Perm t → ∀ code, search code none u = t.severityOf code
  /-- A key that is set counts where it leads and nowhere else. -/
  updated : ∀ k s, Distinct (Table.keys (t.set k s)) → ∀ code,
    (t.set k s).severityOf code = if t.Leads k code then s else t.severityOf code

/-- With keys distinct up to case the longest one that fits counts, in whatever order
they are found. -/
theorem longest_prefix (t : Severities) (h : Distinct (Table.keys t)) : t.LongestPrefix where
  longest _ _ := resolves_iff h.apart
  unordered _ hp := severityOf_perm h hp
  searched u hp code := by
    have hu : Distinct (Table.keys u) := ((hp.map Prod.fst).map upperAscii).nodup_iff.2 h
    rw [search_severityOf hu, severityOf_perm h hp]
  updated k s hk code := by
    apply (resolves_iff hk.apart).1
    split
    · next hlead => exact resolves_set hlead s
    · next hlead => exact resolves_set_of_not hlead (severityOf_resolves t code) s

/-- A table out of order with keys in both cases, and a key set in it. -/
theorem longest_prefix_mixed :
    Distinct (Table.keys [("t10", Severity.off), ("", .hint), ("T", .warning)]) ∧
    LongestPrefix [("t10", .off), ("", .hint), ("T", .warning)] ∧
    Distinct (Table.keys (set [("t10", .off), ("", .hint), ("T", .warning)] "t104" .info)) ∧
    severityOf (set [("t10", .off), ("", .hint), ("T", .warning)] "t104" .info) "T104" = .info ∧
    severityOf (set [("t10", .off), ("", .hint), ("T", .warning)] "t104" .info) "T103" = .off := by
  have h : Distinct (Table.keys [("t10", Severity.off), ("", .hint), ("T", .warning)]) := by decide
  have hset : Distinct (Table.keys
      (set [("t10", .off), ("", .hint), ("T", .warning)] "t104" .info)) := by
    decide
  have hmap := longest_prefix [("t10", .off), ("", .hint), ("T", .warning)] h
  refine ⟨h, hmap, hset, ?_, ?_⟩
  · rw [hmap.updated "t104" .info hset "T104"]
    decide
  · rw [hmap.updated "t104" .info hset "T103"]
    decide

end Severities

end Stencil
