import Stencil.Proofs.Render.Quiet

/-!
# What a name resolves to

The rules of resolution, without a memo and without an order of calls: a value is
asked before its own properties are read, the nearest frame that has a name has it
for all inside of it, names with a dot in front stay in their frame, and a getter
is called with the frame the name was asked in. Against a steady host resolution
gives what the rules say, and they leave it no choice.
-/

set_option autoImplicit false

namespace Stencil

variable {σ : Type}

inductive Value.Has (env : Env σ) (s : σ) (v : Value) (name : List Char) : Option Value → Prop
  | answered {answer : StateM σ (Except LookupError (Option Value))} {w : Value} :
      ask? env v name = some answer → (answer s).1 = .ok (some w) → Has env s v name (some w)
  | unanswered {answer : StateM σ (Except LookupError (Option Value))} :
      ask? env v name = some answer → (∀ w, (answer s).1 ≠ .ok (some w)) →
      Has env s v name (walkOwn env v name s).1
  | mute : ask? env v name = none → Has env s v name (walkOwn env v name s).1

namespace Scope

inductive Finds (env : Env σ) (s : σ) (scope : Scope) : List Char → Option Value → Prop
  | itself : Finds env s scope ['.'] (some scope.value)
  | own {name : List Char} {r : Option Value} : name ≠ [] → scope.value.Has env s name r →
      Finds env s scope ('.' :: name) r
  | nearest {name : List Char} {inner outer : List Value} {v w : Value} :
      name.head? ≠ some '.' → scope.value :: scope.outer = inner ++ v :: outer →
      (∀ u ∈ inner, u.Has env s name none) → v.Has env s name (some w) →
      Finds env s scope name (some w)
  | nowhere {name : List Char} : name.head? ≠ some '.' →
      (∀ u ∈ scope.value :: scope.outer, u.Has env s name none) → Finds env s scope name none

inductive Resolves (env : Env σ) (s : σ) (scope : Scope) (name : List Char) :
    Option Value → Prop
  | called {id : Nat} : scope.Finds env s name (some (.getter id)) →
      Resolves env s scope name (some (env.host.getter id scope.value s).1)
  | found {r : Option Value} : scope.Finds env s name r → (∀ id, r ≠ some (.getter id)) →
      Resolves env s scope name r

end Scope

section Steady

variable {env : Env σ} (hs : env.host.Steady)
include hs

/-- A value that answers keys and has no answer is read as plain data. -/
theorem resolveLocal_asked {s : σ} {v : Value} {name : List Char}
    {answer : StateM σ (Except LookupError (Option Value))} (h : ask? env v name = some answer) :
    (resolveLocal env v name s).1 = match (answer s).1 with
      | .ok (some w) => some w
      | .ok none | .error _ => (walkOwn env v name s).1 := by
  rw [resolveLocal, h]
  dsimp only
  rw [(ask_still hs h).bind_fst]
  rcases (answer s).1 with e | _ | w
  · rfl
  · rfl
  · rfl

theorem has_iff (s : σ) (v : Value) (name : List Char) (r : Option Value) :
    v.Has env s name r ↔ r = (resolveLocal env v name s).1 := by
  cases h : ask? env v name with
  | none =>
    have hl : resolveLocal env v name = walkOwn env v name := by rw [resolveLocal, h]
    rw [hl]
    constructor
    · rintro (⟨ha, -⟩ | ⟨ha, -⟩ | ⟨-⟩)
      · cases h.symm.trans ha
      · cases h.symm.trans ha
      · rfl
    · rintro rfl
      exact .mute h
  | some answer =>
    rw [resolveLocal_asked hs h]
    constructor
    · rintro (⟨ha, hw⟩ | ⟨ha, hw⟩ | ⟨ha⟩)
      · cases h.symm.trans ha
        rw [hw]
      · cases h.symm.trans ha
        split
        · next w he => exact absurd he (hw w)
        · rfl
        · rfl
      · cases h.symm.trans ha
    · rintro rfl
      split
      · next w he => exact .answered h he
      · next he => exact .unanswered h fun w hw => by cases he.symm.trans hw
      · next he => exact .unanswered h fun w hw => by cases he.symm.trans hw

theorem resolveFirst_eq (s : σ) (name : List Char) (vs : List Value) :
    (resolveFirst env name vs s).1 = vs.findSome? fun v => (resolveLocal env v name s).1 := by
  induction vs with
  | nil => rfl
  | cons v vs ih =>
    rw [resolveFirst, (resolveLocal_still hs v name).bind_fst, List.findSome?_cons]
    cases (resolveLocal env v name s).1 with
    | some w => rfl
    | none => exact ih

namespace Scope

theorem finds_first_iff (s : σ) (scope : Scope) {name : List Char} (hd : name.head? ≠ some '.')
    (r : Option Value) :
    scope.Finds env s name r ↔ r = (resolveFirst env name (scope.value :: scope.outer) s).1 := by
  rw [resolveFirst_eq hs]
  constructor
  · intro h
    cases h with
    | itself => exact absurd rfl hd
    | own => exact absurd rfl hd
    | nearest _ hvs hn hv =>
      refine (List.findSome?_eq_some_iff.2 ⟨_, _, _, hvs, ?_, fun u hu => ?_⟩).symm
      · exact ((has_iff hs s _ name _).1 hv).symm
      · exact ((has_iff hs s u name _).1 (hn u hu)).symm
    | nowhere _ hn =>
      exact (List.findSome?_eq_none_iff.2 fun u hu =>
        ((has_iff hs s u name _).1 (hn u hu)).symm).symm
  · intro h
    cases r with
    | none =>
      exact .nowhere hd fun u hu =>
        (has_iff hs s u name _).2 (List.findSome?_eq_none_iff.1 h.symm u hu).symm
    | some w =>
      obtain ⟨inner, v, outer, hvs, hv, hn⟩ := List.findSome?_eq_some_iff.1 h.symm
      exact .nearest hd hvs (fun u hu => (has_iff hs s u name _).2 (hn u hu).symm)
        ((has_iff hs s v name _).2 hv.symm)

theorem finds_iff (s : σ) (scope : Scope) (name : List Char) (r : Option Value) :
    scope.Finds env s name r ↔ r = (scope.find env name s).1 := by
  unfold find
  split
  · constructor
    · intro h
      cases h with
      | itself => rfl
      | own hn => exact absurd rfl hn
      | nearest hd => exact absurd rfl hd
      | nowhere hd => exact absurd rfl hd
    · rintro rfl
      exact .itself
  · next name hn =>
    have hne : name ≠ [] := fun h => hn h
    constructor
    · intro h
      cases h with
      | itself => exact absurd rfl hne
      | own _ hv => exact (has_iff hs s _ _ _).1 hv
      | nearest hd => exact absurd rfl hd
      | nowhere hd => exact absurd rfl hd
    · intro h
      exact .own hne ((has_iff hs s _ _ _).2 h)
  · next _ h1 h2 =>
    refine finds_first_iff hs s scope (fun hd => ?_) r
    obtain ⟨rest, rfl⟩ := List.head?_eq_some_iff.1 hd
    exact h2 rest rfl

theorem resolves_iff (s : σ) (scope : Scope) (name : List Char) (r : Option Value) :
    scope.Resolves env s name r ↔ r = (scope.resolveAfresh env name s).1 := by
  rw [resolveAfresh, (find_still hs scope name).bind_fst]
  constructor
  · rintro (⟨hf⟩ | ⟨hf, hn⟩)
    · rw [← (finds_iff hs s scope name _).1 hf]
      rfl
    · rw [← (finds_iff hs s scope name _).1 hf]
      split
      · next id => exact absurd rfl (hn id)
      · rfl
  · have hf := (finds_iff hs s scope name _).2 rfl
    rintro rfl
    generalize (scope.find env name s).1 = found at hf ⊢
    split
    · exact .called hf
    · next hn => exact .found hf hn

end Scope

end Steady

end Stencil
