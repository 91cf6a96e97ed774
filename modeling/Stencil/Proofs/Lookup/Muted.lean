import Stencil.Lookup.Context
import Stencil.Proofs.Lookup.Wrapped

/-!
# Accessors that fail

An accessor that fails to look a key up is taken for one that does not have it, in the
frame it is bound to as well as part way down a path. Which frame has a name in the end,
and what effects there are before it is asked, is the same for both.
-/

set_option autoImplicit false

namespace Stencil

variable {σ : Type}

/-- The host whose accessors of the handles in `which` do not have the keys that they
failed to look up. -/
def Host.muted (which : Nat → Bool) (h : Host σ) : Host σ :=
  { h with get := fun id key s =>
      match which id, h.get id key s with
      | true, (.error _, s) => (.ok none, s)
      | _, answer => answer }

def Env.muted (which : Nat → Bool) (env : Env σ) : Env σ :=
  { env with host := env.host.muted which }

/-! ## Which frame answers -/

def resolveWhich (env : Env σ) (name : List Char) :
    List Value → StateM σ (Option (Nat × Value))
  | [] => pure none
  | v :: vs => do
    match ← resolveLocal env v name with
    | some w => pure (some (0, w))
    | none => do
      let found ← resolveWhich env name vs
      pure (found.map fun x => (x.1 + 1, x.2))

theorem resolveFirst_which (env : Env σ) (name : List Char) (vs : List Value) :
    resolveFirst env name vs = Option.map Prod.snd <$> resolveWhich env name vs := by
  induction vs with
  | nil => rfl
  | cons v vs ih =>
    rw [resolveFirst, resolveWhich, map_bind]
    refine bind_congr fun found => ?_
    cases found with
    | some w => rfl
    | none =>
      rw [ih, bind_pure_comp, Functor.map_map]
      refine congrArg (· <$> resolveWhich env name vs) (funext fun x => ?_)
      cases x <;> rfl

namespace Scope

def asked (s : Scope) (name : List Char) : List Value :=
  if name.head? = some '.' then [s.value] else s.value :: s.outer

def answerer (env : Env σ) (s : Scope) (name : List Char) : StateM σ (Option (Nat × Value)) :=
  if name = ['.'] then pure (some (0, s.value))
  else resolveWhich env (dropDot name) (s.asked name)

theorem find_answerer (env : Env σ) (s : Scope) (name : List Char) :
    s.find env name = Option.map Prod.snd <$> s.answerer env name := by
  by_cases hd : name = ['.']
  · subst hd
    rfl
  · rw [answerer, if_neg hd, ← resolveFirst_which, asked, find_eq env s hd]
    split
    · refine (bind_pure _).symm.trans (bind_congr fun found => ?_)
      cases found <;> rfl
    · rfl

end Scope

/-! ## The same answers -/

def Host.answer (h : Host σ) (id : Nat) (key : String) : StateM σ (Option Value) := fun s =>
  ((h.get id key s).1.toOption.join, (h.get id key s).2)

theorem walk_answer (env : Env σ) (id : Nat) (props : List (String × Value))
    (view : Option Value) (path : List Char) :
    walk env (.accessor id props view) (some path) = env.host.answer id (String.ofList path) := by
  rw [walk_accessor]
  funext s
  rw [Host.answer]
  rcases env.host.get id (String.ofList path) s with ⟨e | found, t⟩
  · rfl
  · rfl

/-- A value whose accessor fails is read as plain data, as one whose accessor does not
have the key. -/
theorem resolveLocal_answer (env : Env σ) (id : Nat) (props : List (String × Value))
    (view : Option Value) (name : List Char) :
    resolveLocal env (.accessor id props view) name =
      env.host.answer id (String.ofList name) >>= fun found =>
        found.elim (walkOwn env (.accessor id props view) name) fun w => pure (some w) := by
  funext s
  have hask : ask? env (.accessor id props view) name =
      some (env.host.get id (String.ofList name)) := rfl
  rw [resolveLocal, hask]
  unfold Host.answer
  generalize env.host.get id (String.ofList name) = get
  simp only [bind, StateT.bind]
  rcases get s with ⟨e | _ | w, t⟩
  · rfl
  · rfl
  · rfl

section Muted

variable (which : Nat → Bool) (env : Env σ)

theorem Host.answer_muted (h : Host σ) (id : Nat) (key : String) :
    (h.muted which).answer id key = h.answer id key := by
  funext s
  rw [answer, answer]
  cases hw : which id with
  | false => simp only [muted, hw]
  | true =>
    rcases hg : h.get id key s with ⟨e | found, t⟩
    · simp only [muted, hw, hg]
      rfl
    · simp only [muted, hw, hg]

theorem run_muted (fs : Formatters) (steps : List Step) (v : Value) :
    (env.muted which).host.run fs steps v = env.host.run fs steps v := by
  induction steps generalizing v with
  | nil => rfl
  | cons step steps ih =>
    rw [Host.run, Host.run]
    simp only [ih]
    rfl

theorem formatted_muted (owner : Owner) (fields : List (String × Value)) (steps : List Step)
    (found : Option Value) :
    formatted (env.muted which) owner fields steps found =
      formatted env owner fields steps found := by
  simp only [formatted, run_muted]
  rfl

theorem walk_muted (v : Value) (path : Option (List Char)) :
    walk (env.muted which) v path = walk env v path := by
  cases path with
  | none => rw [walk_end, walk_end]
  | some path =>
    have hown : ∀ (w : Value) (r : List Char), r.length ≤ path.length →
        walkOwn (env.muted which) w r = walkOwn env w r := by
      intro w r hr
      unfold walkOwn
      split
      · rfl
      · next u _ =>
        cases hq : (Key.head r).2 with
        | none => rw [walk_end, walk_end]
        | some q =>
          have hlt := Key.head_length_lt hq
          exact walk_muted u (some q)
    cases v with
    | accessor id props view =>
      rw [walk_answer, walk_answer]
      exact env.host.answer_muted which id (String.ofList path)
    | node id owner fields =>
      have hlen : (dropDot (Key.parse path).field).length ≤ path.length :=
        Nat.le_trans (dropDot_length_le _) (Key.field_length_le path)
      rw [walk_node, walk_node, hown _ _ hlen]
      exact bind_congr fun found => formatted_muted which env owner fields _ found
    | _ => rw [walk_mute rfl, walk_mute rfl, hown _ _ (Nat.le_refl _)]
termination_by path.elim 0 fun p => p.length + 1

theorem walkOwn_muted (v : Value) (path : List Char) :
    walkOwn (env.muted which) v path = walkOwn env v path := by
  simp only [walkOwn, walk_muted]

theorem resolveLocal_muted (v : Value) (name : List Char) :
    resolveLocal (env.muted which) v name = resolveLocal env v name := by
  cases v with
  | accessor id props view =>
    rw [resolveLocal_answer, resolveLocal_answer, walkOwn_muted, Env.muted, Host.answer_muted]
  | node id owner fields => simp only [resolveLocal, ask?, walk_muted, walkOwn_muted]
  | _ => simp only [resolveLocal, ask?, walkOwn_muted]

theorem resolveWhich_muted (name : List Char) (vs : List Value) :
    resolveWhich (env.muted which) name vs = resolveWhich env name vs := by
  induction vs with
  | nil => rfl
  | cons v vs ih => simp only [resolveWhich, resolveLocal_muted, ih]

namespace Scope

theorem answerer_muted (s : Scope) (name : List Char) :
    s.answerer (env.muted which) name = s.answerer env name := by
  simp only [answerer, resolveWhich_muted]

theorem resolve_muted (s : Scope) (name : List Char) :
    s.resolve (env.muted which) name = s.resolve env name := by
  simp only [resolve, resolveAfresh, find_answerer, answerer_muted]
  rfl

theorem lookup_muted (s : Scope) (key : List Char) :
    s.lookup (env.muted which) key = s.lookup env key := by
  simp only [lookup, resolve_muted, run_muted]
  rfl

end Scope

end Muted

end Stencil
