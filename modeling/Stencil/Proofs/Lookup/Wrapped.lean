import Stencil.Proofs.Format.Standard
import Stencil.Proofs.Key.Field
import Stencil.Proofs.Lookup.Walk
import Stencil.Proofs.Render.Agreement

/-!
# Looking up in wrapped data

Data answers no keys and is walked property by property. Wrapped, its nodes are asked
first and take the key apart themselves; for a dotted path this comes to the same walk,
and where a node does not have the path, its own properties do not have it either.
-/

set_option autoImplicit false

namespace Stencil

variable {σ : Type} (env : Env σ)

abbrev FindAlike (x y : StateM σ (Option Value)) : Prop :=
  ∃ a b, x = pure a ∧ y = pure b ∧ Option.Rel Value.WrappedAs a b

theorem ask_plain {v : Value} (h : v.Plain) (key : List Char) : ask? env v key = none := by
  cases v with
  | accessor id props view => exact h.elim
  | node id owner fields => exact h.elim
  | _ => rfl

theorem walk_plain {v : Value} (h : v.Plain) (path : Option (List Char)) :
    ∃ a, walk env v path = pure a ∧ ∀ w, a = some w → w.Plain := by
  cases hp : path with
  | none => exact ⟨some v, walk_end env v, fun w hw => Option.some.inj hw ▸ h⟩
  | some p =>
    rw [walk_mute (ask_plain env h p), walkOwn]
    cases hv : v.property (String.ofList (Key.head p).1) with
    | none => exact ⟨none, rfl, fun w hw => by cases hw⟩
    | some w =>
      have hw := Value.plain_property h hv
      exact walk_plain hw (Key.head p).2
termination_by path.elim 0 fun p => p.length + 1
decreasing_by
  subst hp
  cases hr : (Key.head p).2 with
  | none => simp
  | some r => simpa using Key.head_length_lt hr

/-- For a dotted path a node walks its own properties, as data does. -/
theorem walk_dotted {n : Value} (hn : n.unwrapped.Plain) {path : List Char}
    (h : Key.Dotted path) : walk env n (some path) = walkOwn env n path := by
  cases n with
  | node id owner fields =>
    have hne : path.isEmpty = false := by simpa using h.flush.1
    rw [walk_node, h.parse_eq]
    simp only [dropDot_of_ne h.ne_dot, hne]
    rw [walkOwn, walkOwn]
    exact bind_pure _
  | accessor id props view => exact hn.elim
  | _ => exact walk_mute rfl

theorem walkOwn_wrapped {path : List Char} (h : Key.Dotted path) {v n : Value}
    (hv : v.WrappedAs n) :
    FindAlike (walkOwn env v path) (walkOwn env n path) := by
  induction h generalizing v n with
  | @single s hs =>
    have hp := hv.property (String.ofList s)
    rw [walkOwn, walkOwn, Key.head_whole hs.no_dot]
    generalize v.property (String.ofList s) = x at hp
    generalize n.property (String.ofList s) = y at hp
    cases hp with
    | none => exact ⟨none, none, rfl, rfl, .none⟩
    | some hw => exact ⟨_, _, walk_end .., walk_end .., .some hw⟩
  | @cons s r hs hr ih =>
    have hp := hv.property (String.ofList s)
    rw [walkOwn, walkOwn, Key.head_cut hs.no_dot]
    generalize v.property (String.ofList s) = x at hp
    generalize n.property (String.ofList s) = y at hp
    cases hp with
    | none => exact ⟨none, none, rfl, rfl, .none⟩
    | @some w m hw =>
      show FindAlike (walk env w (some r)) (walk env m (some r))
      rw [walk_dotted env hw.plain_data hr, walk_dotted env hw.plain_wrapped hr]
      exact ih hw

/-- Asked for a dotted path first or not, a value gives what is found walking it. -/
theorem resolveLocal_walk {n : Value} (hn : n.unwrapped.Plain) {path : List Char}
    (h : Key.Dotted path) {found : Option Value} (hw : walkOwn env n path = pure found) :
    resolveLocal env n path = pure found := by
  cases n with
  | node id owner fields =>
    have hwalk := walk_dotted env hn h
    rw [hw] at hwalk
    simp only [resolveLocal, ask?, hwalk, pure_bind]
    cases found with
    | none => exact hw
    | some w => rfl
  | accessor id props view => exact hn.elim
  | _ => exact hw

theorem resolveLocal_wrapped {path : List Char} (h : Key.Dotted path) {v n : Value}
    (hv : v.WrappedAs n) :
    FindAlike (resolveLocal env v path) (resolveLocal env n path) := by
  obtain ⟨a, b, ha, hb, hab⟩ := walkOwn_wrapped env h hv
  exact ⟨a, b, resolveLocal_walk env hv.plain_data h ha,
    resolveLocal_walk env hv.plain_wrapped h hb, hab⟩

theorem resolveFirst_wrapped {path : List Char} (h : Key.Dotted path) {vs ns : List Value}
    (hv : List.Forall₂ Value.WrappedAs vs ns) :
    FindAlike (resolveFirst env path vs) (resolveFirst env path ns) := by
  induction hv with
  | nil => exact ⟨none, none, rfl, rfl, .none⟩
  | cons hv _ ih =>
    obtain ⟨a, b, ha, hb, hab⟩ := resolveLocal_wrapped env h hv
    rw [resolveFirst, resolveFirst, ha, hb, pure_bind, pure_bind]
    cases hab with
    | none => exact ih
    | some hw => exact ⟨_, _, rfl, rfl, .some hw⟩

namespace Scope

structure WrappedAs (s s' : Scope) : Prop where
  value : s.value.WrappedAs s'.value
  outer : List.Forall₂ Value.WrappedAs s.outer s'.outer

variable {s s' : Scope}

theorem find_own (s : Scope) {path : List Char} (h : path ≠ []) :
    s.find env ('.' :: path) = resolveLocal env s.value path := by
  cases path with
  | nil => exact absurd rfl h
  | cons c r => rfl

theorem find_any (s : Scope) {path : List Char} (h : ∀ r, path ≠ '.' :: r) :
    s.find env path = resolveFirst env path (s.value :: s.outer) := by
  unfold find
  split
  · exact absurd rfl (h [])
  · next r _ => exact absurd rfl (h r)
  · rfl

theorem find_eq (s : Scope) {field : List Char} (h : field ≠ ['.']) :
    s.find env field =
      if field.head? = some '.' then resolveLocal env s.value (dropDot field)
      else resolveFirst env (dropDot field) (s.value :: s.outer) := by
  split
  · next hd =>
    obtain ⟨r, rfl⟩ := List.head?_eq_some_iff.1 hd
    exact find_own env s fun hr => h (by rw [hr])
  · next hd =>
    have hany : ∀ r, field ≠ '.' :: r := by
      rintro r rfl
      exact hd rfl
    rw [dropDot_of_ne hany, find_any env s hany]

theorem find_wrapped {field : List Char} (h : Key.Simple field) (hs : s.WrappedAs s') :
    FindAlike (s.find env field) (s'.find env field) := by
  rcases h with rfl | h
  · exact ⟨_, _, rfl, rfl, .some hs.value⟩
  · by_cases hd : ∃ r, field = '.' :: r
    · obtain ⟨r, rfl⟩ := hd
      have hr : Key.Dotted r := h
      rw [find_own env s hr.flush.1, find_own env s' hr.flush.1]
      exact resolveLocal_wrapped env hr hs.value
    · have hany : ∀ r, field ≠ '.' :: r := fun r hr => hd ⟨r, hr⟩
      rw [dropDot_of_ne hany] at h
      rw [find_any env s hany, find_any env s' hany]
      exact resolveFirst_wrapped env h (.cons hs.value hs.outer)

theorem resolveAfresh_data {field : List Char} {a : Option Value}
    (hf : s.find env field = pure a) (ha : ∀ v, a = some v → v.unwrapped.Plain) :
    s.resolveAfresh env field = pure a := by
  rw [resolveAfresh, hf, pure_bind]
  cases a with
  | none => rfl
  | some v =>
    cases v with
    | getter id => exact (ha _ rfl).elim
    | _ => rfl

theorem resolveAfresh_wrapped {field : List Char} (h : Key.Simple field) (hs : s.WrappedAs s') :
    FindAlike (s.resolveAfresh env field) (s'.resolveAfresh env field) := by
  obtain ⟨a, b, ha, hb, hab⟩ := find_wrapped env h hs
  refine ⟨a, b, resolveAfresh_data env ha ?_, resolveAfresh_data env hb ?_, hab⟩
  · rintro v rfl
    cases hab with
    | some hv => exact hv.plain_data
  · rintro n rfl
    cases hab with
    | some hv => exact hv.plain_wrapped

end Scope

abbrev Memo.WrappedAs (m m' : Memo) : Prop :=
  List.Forall₂ (fun e e' => e.1 = e'.1 ∧ Option.Rel Value.WrappedAs e.2 e'.2) m m'

theorem Memo.WrappedAs.lookup {m m' : Memo} (h : Memo.WrappedAs m m') (name : String) :
    Option.Rel (Option.Rel Value.WrappedAs) (m.lookup name) (m'.lookup name) := by
  induction h with
  | nil => exact .none
  | @cons e e' m m' he _ ih =>
    obtain ⟨k, v⟩ := e
    obtain ⟨k', v'⟩ := e'
    obtain ⟨rfl, hv⟩ : k = k' ∧ _ := he
    rw [List.lookup_cons, List.lookup_cons]
    cases name == k with
    | true => exact .some hv
    | false => exact ih

namespace Scope

variable {s s' : Scope}

theorem resolve_wrapped {field : List Char} (h : Key.Simple field) (hs : s.WrappedAs s')
    {m m' : Memo} (hm : Memo.WrappedAs m m') (host : σ) :
    ∃ a b u u', s.resolve env field m host = ((a, u), host) ∧
      s'.resolve env field m' host = ((b, u'), host) ∧ Option.Rel Value.WrappedAs a b ∧
      Memo.WrappedAs u u' := by
  have hfound := hm.lookup (String.ofList field)
  rw [resolve_eq, resolve_eq]
  generalize m.lookup (String.ofList field) = x at hfound
  generalize m'.lookup (String.ofList field) = y at hfound
  cases hfound with
  | some hab => exact ⟨_, _, m, m', rfl, rfl, hab, hm⟩
  | none =>
    obtain ⟨a, b, ha, hb, hab⟩ := resolveAfresh_wrapped env h hs
    rw [ha, hb]
    exact ⟨a, b, _, _, rfl, rfl, hab, .cons ⟨rfl, hab⟩ hm⟩

end Scope

namespace Key

theorem literal_plain (s : List Char) : (literal s).Plain := by
  unfold literal
  split
  · exact trivial
  · dsimp only
    split_ifs
    · exact trivial
    · exact trivial
    · exact trivial
    · split
      · exact trivial
      · split <;> exact trivial
    · exact trivial

theorem parse_plain (key : List Char) : ∀ s ∈ (parse key).steps, ∀ a ∈ s.args, a.Plain := by
  intro s hs a ha
  obtain ⟨text, -, hread⟩ := List.mem_filterMap.1 hs
  rw [readStep?] at hread
  split at hread
  · cases hread
  · cases hread
    split at ha
    · cases ha
    · obtain ⟨word, -, rfl⟩ := List.mem_map.1 ha
      exact literal_plain word

end Key

theorem Host.formats_standard (host : Host σ) (name : String) :
    host.Formats Standard.formatters name (Standard.formatters.apply name) :=
  formats_apply (fun e he => (Standard.formatters_through e he).imp fun _ h => h.1) name

theorem Host.run_standard (host : Host σ) (steps : List Step) (v : Value) :
    host.run Standard.formatters steps v = pure (Standard.formatters.run steps v) :=
  run_apply host.formats_standard steps v

structure Key.Readable (key : String) : Prop where
  trimmed : Text.trim key.toList = key.toList
  simple : Key.Simple (Key.parse key.toList).field

namespace Scope

variable {s s' : Scope}

/-- The field of a trimmed key is resolved, with formatters behind it or without. -/
theorem lookup_eq (s : Scope) {key : List Char} (h : Text.trim key = key) :
    s.lookup env key = (do
      let found ← s.resolve env (Key.parse key).field
      env.host.run env.formatters (Key.parse key).steps (found.getD .null)) := by
  rw [lookup]
  split
  · rfl
  · next hp =>
    rw [Key.parse_bare (by simpa using hp) h]
    rfl

/-- Looking a readable key up in data gives data, and wrapped data the same wrapped. -/
theorem lookup_wrapped (hf : env.formatters = Standard.formatters) {key : String}
    (hk : Key.Readable key) (hs : s.WrappedAs s') {m m' : Memo} (hm : Memo.WrappedAs m m')
    (host : σ) :
    ∃ v n u u', s.lookup env key.toList m host = ((v, u), host) ∧
      s'.lookup env key.toList m' host = ((n, u'), host) ∧ v.WrappedAs n ∧ Memo.WrappedAs u u' := by
  obtain ⟨a, b, u, u', ha, hb, hab, hu⟩ := resolve_wrapped env hk.simple hs hm host
  rw [lookup_eq env s hk.trimmed, lookup_eq env s' hk.trimmed, hf]
  simp only [Host.run_standard]
  refine ⟨_, _, u, u', ?_, ?_, Standard.run_through (Key.parse_plain key.toList)
    (Value.WrappedAs.orNull hab), hu⟩
  · show (fun r : (Option Value × Memo) × σ => ((Standard.formatters.run _ (r.1.1.getD .null),
      r.1.2), r.2)) (s.resolve env (Key.parse key.toList).field m host) = _
    rw [ha]
  · show (fun r : (Option Value × Memo) × σ => ((Standard.formatters.run _ (r.1.1.getD .null),
      r.1.2), r.2)) (s'.resolve env (Key.parse key.toList).field m' host) = _
    rw [hb]

end Scope

end Stencil
