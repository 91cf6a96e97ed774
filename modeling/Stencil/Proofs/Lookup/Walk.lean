import Stencil.Lookup.Scope

/-!
# Walks, by who answers

A walk is told by the value it has come to: an accessor answers for the rest of the
path, a node finds its field among its own properties and formats it, and all else
is walked property by property. What is found depends on a registry only through
what its names stand for.
-/

set_option autoImplicit false

namespace Stencil

variable {σ : Type}

theorem walk_end (env : Env σ) (v : Value) : walk env v none = pure (some v) := by rw [walk]

theorem walk_accessor (env : Env σ) (id : Nat) (props : List (String × Value))
    (view : Option Value) (path : List Char) :
    walk env (.accessor id props view) (some path) = fun s =>
      match env.host.get id (String.ofList path) s with
      | (.ok found, s) => (found, s)
      | (.error _, s) => (none, s) := by
  unfold walk
  rfl

theorem walk_mute {env : Env σ} {v : Value} {path : List Char} (h : ask? env v path = none) :
    walk env v (some path) = walkOwn env v path := by
  rw [walkOwn, walk]
  · cases v.property (String.ofList (Key.head path).1) with
    | none => rfl
    | some w =>
      dsimp only
      split
      · next hr => rw [hr, walk_end]
      · next r hr => rw [hr]
  · rintro id props view rfl
    cases h
  · rintro id owner fields rfl
    cases h

theorem walk_node (env : Env σ) (id : NodeId) (owner : Owner) (fields : List (String × Value))
    (path : List Char) :
    walk env (.node id owner fields) (some path) =
      (if (dropDot (Key.parse path).field).isEmpty then pure (some (.object fields))
        else walkOwn env (.object fields) (dropDot (Key.parse path).field)) >>=
      formatted env owner fields (Key.parse path).steps := by
  rw [walk]
  split
  · rfl
  · rw [walkOwn, Value.property]
    split
    · rfl
    · split
      · next w _ hr => rw [hr, walk_end]
      · next w _ r hr =>
        show walk env w (some r) >>= _ = _
        rw [hr]

section Functions

variable {host : Host σ} {fs : Formatters}

/-- The formatter of this name is a function, whatever the host does elsewhere. -/
def Host.Formats (host : Host σ) (fs : Formatters) (name : String) (f : Formatter) : Prop :=
  ∀ v args s, host.apply fs name v args s = (f v args, s)

theorem Host.run_cons {step : Step} {f : Formatter} (h : host.Formats fs step.name f)
    (steps : List Step) (v : Value) :
    host.run fs (step :: steps) v = host.run fs steps (f v step.args) := by
  funext s
  show (fun o : Value × σ => host.run fs steps o.1 o.2) (host.apply fs step.name v step.args s) = _
  rw [h]

theorem Host.run_formats {steps : List Step}
    (h : ∀ step ∈ steps, ∃ f, host.Formats fs step.name f) (v : Value) :
    ∃ u, host.run fs steps v = pure u := by
  induction steps generalizing v with
  | nil => exact ⟨v, rfl⟩
  | cons step steps ih =>
    rw [List.forall_mem_cons] at h
    obtain ⟨⟨f, hf⟩, hrest⟩ := h
    rw [Host.run_cons hf]
    exact ih hrest _

theorem Host.formats_apply (h : ∀ e ∈ fs.entries, ∃ f, e.2 = .function f) (name : String) :
    host.Formats fs name (fs.apply name) := by
  intro v args s
  rw [Host.apply]
  cases hr : fs.get? name with
  | none => rfl
  | some r =>
    obtain ⟨f, rfl⟩ := h _ (Table.mem_of_get? hr)
    rfl

theorem Host.run_apply (h : ∀ name, host.Formats fs name (fs.apply name)) (steps : List Step)
    (v : Value) : host.run fs steps v = pure (fs.run steps v) := by
  induction steps generalizing v with
  | nil => rfl
  | cons step steps ih =>
    rw [Host.run_cons (h step.name), ih]
    rfl

end Functions

section Registries

variable {host : Host σ} {fs gs : Formatters} (h : ∀ name, fs.get? name = gs.get? name)
include h

theorem Host.run_congr (steps : List Step) (v : Value) :
    host.run fs steps v = host.run gs steps v := by
  induction steps generalizing v with
  | nil => rfl
  | cons step steps ih => simp only [run, apply, Formatters.apply, h, ih]

theorem formatted_congr (owner : Owner) (fields : List (String × Value)) (steps : List Step) :
    formatted ⟨host, fs⟩ owner fields steps = formatted ⟨host, gs⟩ owner fields steps := by
  cases owner with
  | engine =>
    funext found
    simp only [formatted, Env.registry, Host.run_congr h]
  | other n => rfl

theorem walk_congr (v : Value) (path : Option (List Char)) :
    walk ⟨host, fs⟩ v path = walk ⟨host, gs⟩ v path := by
  cases path with
  | none => rw [walk_end, walk_end]
  | some path =>
    have hown : ∀ (w : Value) (r : List Char), r.length ≤ path.length →
        walkOwn ⟨host, fs⟩ w r = walkOwn ⟨host, gs⟩ w r := by
      intro w r hr
      unfold walkOwn
      split
      · rfl
      · next u _ =>
        cases hq : (Key.head r).2 with
        | none => rw [walk_end, walk_end]
        | some q =>
          have hlt := Key.head_length_lt hq
          exact walk_congr u (some q)
    cases v with
    | accessor id props view => rw [walk_accessor, walk_accessor]
    | node id owner fields =>
      have hlen : (dropDot (Key.parse path).field).length ≤ path.length :=
        Nat.le_trans (dropDot_length_le _) (Key.field_length_le path)
      rw [walk_node, walk_node, hown _ _ hlen, formatted_congr h]
    | _ => rw [walk_mute rfl, walk_mute rfl, hown _ _ (Nat.le_refl _)]
termination_by path.elim 0 fun p => p.length + 1

theorem walkOwn_congr (v : Value) (path : List Char) :
    walkOwn ⟨host, fs⟩ v path = walkOwn ⟨host, gs⟩ v path := by
  simp only [walkOwn, walk_congr h]

theorem ask_congr (v : Value) (key : List Char) :
    ask? ⟨host, fs⟩ v key = ask? ⟨host, gs⟩ v key := by
  cases v with
  | node id owner fields => simp only [ask?, walk_congr h]
  | _ => rfl

theorem resolveLocal_congr (v : Value) (name : List Char) :
    resolveLocal ⟨host, fs⟩ v name = resolveLocal ⟨host, gs⟩ v name := by
  simp only [resolveLocal, ask_congr h, walkOwn_congr h]

theorem resolveFirst_congr (name : List Char) (vs : List Value) :
    resolveFirst ⟨host, fs⟩ name vs = resolveFirst ⟨host, gs⟩ name vs := by
  induction vs with
  | nil => rfl
  | cons v vs ih => simp only [resolveFirst, resolveLocal_congr h, ih]

namespace Scope

theorem find_congr (s : Scope) (name : List Char) :
    s.find ⟨host, fs⟩ name = s.find ⟨host, gs⟩ name := by
  unfold find
  split
  · rfl
  · exact resolveLocal_congr h _ _
  · exact resolveFirst_congr h _ _

theorem resolve_congr (s : Scope) (name : List Char) :
    s.resolve ⟨host, fs⟩ name = s.resolve ⟨host, gs⟩ name := by
  simp only [resolve, resolveAfresh, find_congr h]

theorem lookup_congr (s : Scope) (key : List Char) :
    s.lookup ⟨host, fs⟩ key = s.lookup ⟨host, gs⟩ key := by
  simp only [lookup, resolve_congr h, Host.run_congr h]

end Scope

end Registries

end Stencil
