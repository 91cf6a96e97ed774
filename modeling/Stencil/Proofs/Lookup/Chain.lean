import Stencil.Lookup.Context
import Stencil.Proofs.Render.Agreement

/-!
# Chains of frames

A frame of a chain is asked for a name or for a key. It replies from what it
remembers or else resolves the name and remembers what came of it; its value and
the frames around it stay as they are.
-/

set_option autoImplicit false

namespace Stencil

variable {σ : Type}

/-- A name that is remembered stays so when another one is added. -/
theorem Memo.lookup_kept {memo : Memo} {name other : String} {r : Option Value}
    (h : memo.lookup name = some r) (ho : memo.lookup other = none) (r' : Option Value) :
    List.lookup name ((other, r') :: memo) = some r := by
  have hne : (name == other) = false := by
    simp only [beq_eq_false_iff_ne]
    rintro rfl
    cases ho.symm.trans h
  rw [List.lookup_cons, hne]
  exact h

namespace Key

/-- What a key stands for once its field has come to `r`. -/
def valued (env : Env σ) (key : String) (r : Option Value) : StateM σ Value :=
  if hasPipeline key.toList then env.host.run env.formatters (parse key.toList).steps (r.getD .null)
  else pure (r.getD .null)

def Functional (env : Env σ) (key : String) : Prop :=
  ∀ step ∈ (parse key.toList).steps, ∃ f, env.host.Formats env.formatters step.name f

theorem Functional.valued {env : Env σ} {key : String} (h : Functional env key)
    (r : Option Value) : ∃ v, Key.valued env key r = pure v := by
  rw [Key.valued]
  split
  · exact Host.run_formats h _
  · exact ⟨_, rfl⟩

end Key

/-! ## Queries -/

inductive Query
  | resolve (name : String)
  | lookup (key : String)

inductive Reply
  | found (r : Option Value)
  | value (v : Value)

namespace Query

def name : Query → String
  | resolve name => name
  | lookup key =>
    if Key.hasPipeline key.toList then String.ofList (Key.parse key.toList).field else key

/-- The reply to a query whose name resolves to `r`. -/
def reply (env : Env σ) (r : Option Value) : Query → StateM σ Reply
  | resolve _ => pure (.found r)
  | lookup key => do
    let v ← Key.valued env key r
    pure (.value v)

/-- The formatters that the reply takes are functions. -/
def Functional (env : Env σ) : Query → Prop
  | resolve _ => True
  | lookup key => Key.Functional env key

theorem Functional.reply {env : Env σ} {q : Query} (h : q.Functional env) (r : Option Value) :
    ∃ o, q.reply env r = pure o := by
  cases q with
  | resolve name => exact ⟨_, rfl⟩
  | lookup key =>
    obtain ⟨v, hv⟩ := Key.Functional.valued h r
    exact ⟨.value v, by rw [Query.reply, hv, pure_bind]⟩

end Query

namespace Context

def ask (env : Env σ) (c : Context) : Query → σ → Reply × Context × σ
  | .resolve name, s => (.found (c.resolve env name s).1, (c.resolve env name s).2)
  | .lookup key, s => (.value (c.lookup env key s).1, (c.lookup env key s).2)

def remember (c : Context) (name : String) (r : Option Value) : Context :=
  { c with current := { c.current with memo := (name, r) :: c.current.memo } }

theorem ask_eq (env : Env σ) (c : Context) (q : Query) (s : σ) :
    c.ask env q s = (fun a : (Option Value × Memo) × σ => (fun o : Reply × σ =>
      (o.1, { c with current := { c.current with memo := a.1.2 } }, o.2)) (q.reply env a.1.1 a.2))
      (c.scope.resolve env q.name.toList c.current.memo s) := by
  cases q with
  | resolve name => rfl
  | lookup key =>
    by_cases hp : Key.hasPipeline key.toList
    · simp only [ask, lookup, Scope.lookup, Query.name, Query.reply, Key.valued, if_pos hp,
        String.toList_ofList]
      rfl
    · simp only [ask, lookup, Scope.lookup, Query.name, Query.reply, Key.valued, if_neg hp]
      rfl

theorem ask_hit (env : Env σ) {c : Context} {q : Query} {r : Option Value}
    (h : c.current.memo.lookup q.name = some r) (s : σ) :
    c.ask env q s = (fun o : Reply × σ => (o.1, c, o.2)) (q.reply env r s) := by
  rw [ask_eq, Scope.resolve_eq, String.ofList_toList, h]

theorem ask_miss (env : Env σ) {c : Context} {q : Query}
    (h : c.current.memo.lookup q.name = none) (s : σ) :
    c.ask env q s = (fun a : Option Value × σ => (fun o : Reply × σ =>
      (o.1, c.remember q.name a.1, o.2)) (q.reply env a.1 a.2))
      (c.scope.resolveAfresh env q.name.toList s) := by
  rw [ask_eq, Scope.resolve_eq, String.ofList_toList, h]
  rfl

structure Answered (env : Env σ) (c d : Context) (q : Query) (reply : Reply) : Prop where
  parents : d.parents = c.parents
  value : d.current.value = c.current.value
  kept : ∀ name r, c.current.memo.lookup name = some r → d.current.memo.lookup name = some r
  replied : ∃ r s, d.current.memo.lookup q.name = some r ∧ reply = (q.reply env r s).1

theorem ask_answered (env : Env σ) (c : Context) (q : Query) (s : σ) :
    Answered env c (c.ask env q s).2.1 q (c.ask env q s).1 := by
  cases hm : c.current.memo.lookup q.name with
  | some r =>
    rw [ask_hit env hm]
    exact ⟨rfl, rfl, fun _ _ h => h, r, s, hm, rfl⟩
  | none =>
    rw [ask_miss env hm]
    exact ⟨rfl, rfl, fun name r h => Memo.lookup_kept h hm _, _, _, List.lookup_cons_self, rfl⟩

/-! ## Chains -/

def frames (c : Context) : List Frame := c.current :: c.parents

def out? (c : Context) : (up : Nat) → Option Context
  | 0 => some c
  | up + 1 => match c.pop? with
    | none => none
    | some d => d.out? up

/-- The context in which `p` stands `up` frames out, with the frames inside of it as
they are in `c`. -/
def put (c : Context) : (up : Nat) → (p : Context) → Context
  | 0, p => p
  | up + 1, p => match c.pop? with
    | none => c
    | some d => ⟨c.current, (d.put up p).frames⟩

theorem pop_frames {c d : Context} (h : c.pop? = some d) : c.frames = c.current :: d.frames := by
  obtain ⟨f, fs⟩ := c
  cases fs with
  | nil => cases h
  | cons g gs =>
    cases h
    rfl

theorem pop_none {c : Context} (h : c.pop? = none) : c.frames = [c.current] := by
  obtain ⟨f, fs⟩ := c
  cases fs with
  | nil => rfl
  | cons g gs => cases h

theorem out_drop {c p : Context} {up : Nat} (h : c.out? up = some p) :
    c.frames.drop up = p.frames := by
  induction up generalizing c with
  | zero =>
    cases h
    rfl
  | succ up ih =>
    rw [out?] at h
    split at h
    · cases h
    · next d hd => rw [pop_frames hd, List.drop_succ_cons, ih h]

theorem out_none {c : Context} {up : Nat} (h : c.out? up = none) : c.frames.drop up = [] := by
  induction up generalizing c with
  | zero => cases h
  | succ up ih =>
    rw [out?] at h
    split at h
    · next hd => rw [pop_none hd, List.drop_succ_cons, List.drop_nil]
    · next d hd => rw [pop_frames hd, List.drop_succ_cons, ih h]

theorem out_current {c p : Context} {up : Nat} (h : c.out? up = some p) :
    c.frames[up]? = some p.current := by
  rw [← List.head?_drop, out_drop h]
  rfl

theorem put_frames {c p r : Context} {up : Nat} (h : c.out? up = some p)
    (hp : r.parents = p.parents) : (c.put up r).frames = c.frames.set up r.current := by
  induction up generalizing c with
  | zero =>
    cases h
    show r.current :: r.parents = r.current :: p.parents
    rw [hp]
  | succ up ih =>
    rw [out?] at h
    rw [put]
    split at h
    · cases h
    · next d hd =>
      rw [pop_frames hd, List.set_cons_succ, ← ih h]
      rfl

end Context

end Stencil
