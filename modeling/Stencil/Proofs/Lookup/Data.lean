import Stencil.Proofs.Lookup.Wrapped
import Stencil.Proofs.Render.Remembered

/-!
# Looking up in data

Data has no effects: in frames of data every name stands for one value, which a lookup
gives whatever is remembered, and formatters that make data of data lead to nothing else.
Nothing, truth values and numbers have no properties at all, so between other frames they
are passed over by every name without a dot in front.
-/

set_option autoImplicit false

namespace Stencil

variable {σ κ : Type}

namespace Value

def bare : Value → Bool
  | null | bool _ | int _ | float _ => true
  | _ => false

theorem plain_of_bare {v : Value} (h : v.bare = true) : v.Plain := by
  cases v with
  | null | bool | int | float => exact trivial
  | _ => cases h

theorem property_bare {v : Value} (h : v.bare = true) (name : String) : v.property name = none := by
  cases v with
  | null | bool | int | float => rfl
  | _ => cases h

end Value

/-- Every formatter is a function that makes data of data. -/
def Env.Plain (env : Env σ) : Prop :=
  ∀ name, ∃ f : Formatter, env.host.Formats env.formatters name f ∧
    ∀ v args, Value.Plain v → (∀ a ∈ args, a.Plain) → (f v args).Plain

theorem Standard.formatters_plain (host : Host σ) : Env.Plain ⟨host, formatters⟩ := fun name =>
  ⟨formatters.apply name, host.formats_standard name,
    fun _ _ hv hargs => (apply_through name (.refl hv) hargs).plain⟩

namespace Env.Plain

variable {env : Env σ} (h : env.Plain)
include h

theorem run {steps : List Step} (hs : ∀ s ∈ steps, ∀ a ∈ s.args, a.Plain) {v : Value}
    (hv : v.Plain) : ∃ u, env.host.run env.formatters steps v = pure u ∧ u.Plain := by
  induction steps generalizing v with
  | nil => exact ⟨v, rfl, hv⟩
  | cons s steps ih =>
    rw [List.forall_mem_cons] at hs
    obtain ⟨f, hf, hplain⟩ := h s.name
    rw [Host.run_cons hf]
    exact ih hs.2 (hplain v s.args hv hs.1)

theorem valued (key : String) {r : Option Value} (hr : ∀ v, r = some v → v.Plain) :
    ∃ u, Key.valued env key r = pure u ∧ u.Plain := by
  have hv : (r.getD .null).Plain := by
    cases r with
    | none => exact trivial
    | some v => exact hr v rfl
  rw [Key.valued]
  split
  · exact h.run (Key.parse_plain key.toList) hv
  · exact ⟨_, rfl, hv⟩

end Env.Plain

section Names

variable (env : Env σ)

theorem resolveLocal_plain {v : Value} (h : v.Plain) (name : List Char) :
    ∃ a, resolveLocal env v name = pure a ∧ ∀ w, a = some w → w.Plain := by
  have hask := ask_plain env h name
  have hwalk : resolveLocal env v name = walk env v (some name) := by
    rw [resolveLocal, hask, walk_mute hask]
  rw [hwalk]
  exact walk_plain env h (some name)

theorem resolveFirst_plain (name : List Char) {vs : List Value} (h : ∀ v ∈ vs, v.Plain) :
    ∃ a, resolveFirst env name vs = pure a ∧ ∀ w, a = some w → w.Plain := by
  induction vs with
  | nil => exact ⟨none, rfl, nofun⟩
  | cons v vs ih =>
    rw [List.forall_mem_cons] at h
    obtain ⟨a, ha, hplain⟩ := resolveLocal_plain env h.1 name
    rw [resolveFirst, ha, pure_bind]
    cases a with
    | some w => exact ⟨some w, rfl, hplain⟩
    | none => exact ih h.2

theorem resolveLocal_bare {v : Value} (h : v.bare = true) (name : List Char) :
    resolveLocal env v name = pure none := by
  rw [resolveLocal, ask_plain env (Value.plain_of_bare h)]
  simp only [walkOwn, Value.property_bare h]

theorem resolveFirst_filter (name : List Char) (vs : List Value) :
    resolveFirst env name (vs.filter fun v => !v.bare) = resolveFirst env name vs := by
  induction vs with
  | nil => rfl
  | cons v vs ih =>
    cases hv : v.bare with
    | true =>
      rw [List.filter_cons_of_neg (by simp [hv]), ih, resolveFirst, resolveLocal_bare env hv,
        pure_bind]
    | false => rw [List.filter_cons_of_pos (by simp [hv]), resolveFirst, resolveFirst, ih]

end Names

namespace Scope

def Plain (s : Scope) : Prop := ∀ v ∈ s.value :: s.outer, v.Plain

theorem plain_root {v : Value} (h : v.Plain) : Plain ⟨v, []⟩ := by
  intro u hu
  rw [List.mem_singleton.1 hu]
  exact h

theorem Plain.push {s : Scope} (h : s.Plain) {v : Value} (hv : v.Plain) : (s.push v).Plain :=
  List.forall_mem_cons.2 ⟨hv, h⟩

def Faithful (env : Env σ) (s : Scope) (memo : Memo) : Prop :=
  ∀ name r, memo.lookup name = some r → s.resolveAfresh env name.toList = pure r

section Data

variable (env : Env σ)

theorem faithful_nil (s : Scope) : s.Faithful env [] := nofun

theorem Faithful.cons {env : Env σ} {s : Scope} {memo : Memo} (h : s.Faithful env memo)
    {name : String} {r : Option Value} (hr : s.resolveAfresh env name.toList = pure r) :
    s.Faithful env ((name, r) :: memo) := by
  intro other r' hr'
  rw [List.lookup_cons] at hr'
  split at hr'
  · next he =>
    obtain rfl : other = name := by simpa using he
    cases hr'
    exact hr
  · exact h other r' hr'

theorem find_plain {s : Scope} (h : s.Plain) (name : List Char) :
    ∃ a, s.find env name = pure a ∧ ∀ w, a = some w → w.Plain := by
  have hself := h s.value (List.mem_cons_self ..)
  unfold find
  split
  · exact ⟨some s.value, rfl, fun w hw => Option.some.inj hw ▸ hself⟩
  · exact resolveLocal_plain env hself _
  · exact resolveFirst_plain env _ h

theorem resolveAfresh_plain {s : Scope} (h : s.Plain) (name : List Char) :
    ∃ a, s.resolveAfresh env name = pure a ∧ ∀ w, a = some w → w.Plain := by
  obtain ⟨a, ha, hplain⟩ := find_plain env h name
  refine ⟨a, resolveAfresh_data env ha fun v hv => ?_, hplain⟩
  rw [Value.unwrapped_plain (hplain v hv)]
  exact hplain v hv

end Data

structure Level (s s' : Scope) : Prop where
  plain : s.Plain
  plain' : s'.Plain
  same : (s.value :: s.outer).filter (fun v => !v.bare) =
    (s'.value :: s'.outer).filter fun v => !v.bare

theorem Level.push {s s' : Scope} (h : s.Level s') {v : Value} (hv : v.Plain) :
    (s.push v).Level (s'.push v) := by
  refine ⟨h.plain.push hv, h.plain'.push hv, ?_⟩
  show ([v] ++ (s.value :: s.outer)).filter _ = ([v] ++ (s'.value :: s'.outer)).filter _
  rw [List.filter_append, List.filter_append, h.same]

theorem Plain.level {s : Scope} (h : s.Plain) {v : Value} (hv : v.bare = true) :
    (s.push v).Level s := by
  refine ⟨h.push (Value.plain_of_bare hv), h, ?_⟩
  show (v :: (s.value :: s.outer)).filter _ = _
  rw [List.filter_cons_of_neg (by simp [hv])]

theorem Level.resolveAfresh_eq {s s' : Scope} (h : s.Level s') (env : Env σ) {name : List Char}
    (hn : name.head? ≠ some '.') : s.resolveAfresh env name = s'.resolveAfresh env name := by
  have hany : ∀ r, name ≠ '.' :: r := by
    rintro r rfl
    exact hn rfl
  have hfind : s.find env name = s'.find env name := by
    rw [find_any env s hany, find_any env s' hany, ← resolveFirst_filter, h.same,
      resolveFirst_filter]
  obtain ⟨a, ha, hplain⟩ := find_plain env h.plain name
  have hdata : ∀ v, a = some v → v.unwrapped.Plain := fun v hv => by
    rw [Value.unwrapped_plain (hplain v hv)]
    exact hplain v hv
  rw [resolveAfresh_data env ha hdata, resolveAfresh_data env (hfind ▸ ha) hdata]

end Scope

namespace Key

def Undotted (key : String) : Prop := (parse key.toList).field.head? ≠ some '.'

instance (key : String) : Decidable (Undotted key) := inferInstanceAs (Decidable (_ ≠ _))

theorem name_lookup {key : String} (h : Text.trim key.toList = key.toList) :
    (Query.lookup key).name.toList = (parse key.toList).field := by
  rw [Query.name]
  split
  · rw [String.toList_ofList]
  · next hp => rw [parse_bare (by simpa using hp) h]

end Key

/-- In frames of data with a faithful memo a lookup gives what the key stands for and
leaves the memo faithful; only formatters can change anything else. -/
theorem Act.lookup_plain (env : Env σ) {scope : Scope} (hs : scope.Plain) {w : World σ κ}
    (hm : scope.Faithful env w.memo) (key : String) :
    ∃ r memo, scope.resolveAfresh env (Query.lookup key).name.toList = pure r ∧
      (∀ v, r = some v → v.Plain) ∧
      Act.lookup env scope key w = (fun o : Value × σ =>
        .ok (o.1, { w with host := o.2, memo := memo })) (Key.valued env key r w.host) ∧
      scope.Faithful env memo := by
  obtain ⟨r, hr, hplain⟩ := Scope.resolveAfresh_plain env hs (Query.lookup key).name.toList
  cases h : w.memo.lookup (Query.lookup key).name with
  | some hit =>
    obtain rfl : r = hit := congrArg Prod.fst (congrFun (hr.symm.trans (hm _ _ h)) w.host)
    exact ⟨r, w.memo, hr, hplain, Act.lookup_hit env scope h, hm⟩
  | none =>
    refine ⟨r, _, hr, hplain, ?_, hm.cons hr⟩
    rw [Act.lookup_miss env scope h, hr]
    rfl

end Stencil
