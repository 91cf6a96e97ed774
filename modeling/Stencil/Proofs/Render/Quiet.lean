import Stencil.Proofs.Lookup.Walk
import Mathlib.Data.List.Basic

/-!
# Hosts without effects

A host is quiet if nothing it does changes its state, and steady if no getter, no
accessor and no formatter does. Against a steady host every lookup leaves the state as it was,
so a name has one value in a frame, however often it is asked for and whatever
else is remembered.
-/

set_option autoImplicit false

namespace Stencil

variable {σ α β : Type}

inductive Handling.Quiet (s : σ) : Handling σ → Prop
  | answer {v : Value} : Quiet s (.answer v s)
  | render {text : String} {resume : String → σ → Handling σ} :
      (∀ out, Quiet s (resume out s)) → Quiet s (.render text s resume)

structure Host.Quiet (h : Host σ) : Prop where
  getter : ∀ id receiver s, (h.getter id receiver s).2 = s
  lambda : ∀ id body s, (h.lambda id body s).Quiet s
  get : ∀ id key s, (h.get id key s).2 = s
  format : ∀ id v args s, (h.format id v args s).2 = s

structure Host.Steady (h : Host σ) : Prop where
  getter : ∀ id receiver s, (h.getter id receiver s).2 = s
  get : ∀ id key s, (h.get id key s).2 = s
  format : ∀ id v args s, (h.format id v args s).2 = s

theorem Host.Quiet.steady {h : Host σ} (hq : h.Quiet) : h.Steady :=
  ⟨hq.getter, hq.get, hq.format⟩

def Host.echo : Host Unit :=
  { Host.plain with lambda := fun _ body s => .render body s fun out s => .answer (.string out) s }

theorem Host.echo_quiet : Host.echo.Quiet where
  getter _ _ _ := rfl
  lambda _ _ _ := .render fun _ => .answer
  get _ _ _ := rfl
  format _ _ _ _ := rfl

def Still (act : StateM σ α) : Prop := ∀ s, (act s).2 = s

theorem Still.pure (a : α) : Still (Pure.pure a : StateM σ α) := by
  intro s
  rfl

theorem Still.bind {act : StateM σ α} {f : α → StateM σ β} (h : Still act)
    (k : ∀ a, Still (f a)) : Still (act >>= f) := by
  intro s
  show ((f (act s).1) (act s).2).2 = s
  rw [h s]
  exact k _ s

/-- What comes after a computation without effects finds the state it had found. -/
theorem Still.bind_fst {act : StateM σ α} (h : Still act) (f : α → StateM σ β) (s : σ) :
    ((act >>= f) s).1 = (f (act s).1 s).1 := by
  show (f (act s).1 (act s).2).1 = _
  rw [h s]

theorem Scope.resolveAfresh_own {env : Env σ} {name : List Char} {fields : List (String × Value)}
    {outer : List Value} {v : Value} (hn : Key.head name = (name, none))
    (hd : name.head? ≠ some '.') (hv : Table.get? (String.ofList name) fields = some v)
    (hg : ∀ id, v ≠ .getter id) :
    Scope.resolveAfresh env ⟨.object fields, outer⟩ name = pure (some v) := by
  have hown : resolveLocal env (.object fields) name = pure (some v) := by
    show walkOwn env (.object fields) name = _
    rw [walkOwn, hn, Value.property, hv]
    show walk env v none = _
    rw [walk]
  have hfind : Scope.find env ⟨.object fields, outer⟩ name = pure (some v) := by
    unfold Scope.find
    split
    · simp at hd
    · simp at hd
    · show (resolveLocal env (.object fields) name >>= _) = _
      rw [hown]
      rfl
  rw [Scope.resolveAfresh, hfind]
  cases v with
  | getter id => exact absurd rfl (hg id)
  | _ => rfl

section Lookups

variable {env : Env σ} (hq : env.host.Steady)
include hq

theorem getter_still (id : Nat) (receiver : Value) : Still (env.host.getter id receiver) :=
  hq.getter id receiver

theorem get_still (id : Nat) (key : String) : Still (env.host.get id key) := hq.get id key

theorem run_still (fs : Formatters) (steps : List Step) (v : Value) :
    Still (env.host.run fs steps v) := by
  induction steps generalizing v with
  | nil => exact .pure _
  | cons step steps ih =>
    refine .bind ?_ ih
    unfold Host.apply
    split
    · exact hq.format _ _ _
    · exact .pure _

theorem formatted_still (owner : Owner) (fields : List (String × Value)) (steps : List Step)
    (found : Option Value) : Still (formatted env owner fields steps found) := by
  have hrun : ∀ w, Still (env.host.run (env.registry owner) steps w >>= fun out =>
      pure (some out)) := fun w => .bind (run_still hq _ steps w) fun _ => .pure _
  unfold formatted
  split
  · exact .pure _
  · split
    · exact .bind (getter_still hq _ _) hrun
    · exact hrun _
    · exact hrun _

theorem walk_still (v : Value) (path : Option (List Char)) : Still (walk env v path) := by
  fun_induction walk env v path with
  | case1 v => exact .pure _
  | case2 path id props view =>
    intro s
    have hs := hq.get id (String.ofList path) s
    dsimp only
    split
    · next he => rw [he] at hs; exact hs
    · next he => rw [he] at hs; exact hs
  | case3 | case4 | case5 => exact .bind (.pure _) fun found => formatted_still hq _ _ _ found
  | case6 path id owner fields p field jp h w hw r hr hl ih =>
    exact .bind ih fun found => formatted_still hq _ _ _ found
  | case7 | case8 => exact .pure _
  | case9 path v h1 h2 w hw r hr hl ih => exact ih

theorem walkOwn_still (v : Value) (path : List Char) : Still (walkOwn env v path) := by
  unfold walkOwn
  split
  · exact .pure _
  · exact walk_still hq _ _

theorem ask_still {v : Value} {key : List Char}
    {answer : StateM σ (Except LookupError (Option Value))} (h : ask? env v key = some answer) :
    Still answer := by
  unfold ask? at h
  split at h
  · cases h
    exact get_still hq _ _
  · cases h
    exact .bind (walk_still hq _ _) fun _ => .pure _
  · cases h

theorem resolveLocal_still (v : Value) (name : List Char) : Still (resolveLocal env v name) := by
  unfold resolveLocal
  split
  · exact walkOwn_still hq _ _
  · next h =>
    refine .bind (ask_still hq h) fun answer => ?_
    split
    · exact .pure _
    · exact walkOwn_still hq _ _
    · exact walkOwn_still hq _ _

theorem resolveFirst_still (name : List Char) (vs : List Value) :
    Still (resolveFirst env name vs) := by
  induction vs with
  | nil => exact .pure _
  | cons v vs ih =>
    refine .bind (resolveLocal_still hq _ _) fun found => ?_
    split
    · exact .pure _
    · exact ih

theorem find_still (scope : Scope) (name : List Char) : Still (scope.find env name) := by
  unfold Scope.find
  split
  · exact .pure _
  · exact resolveLocal_still hq _ _
  · exact resolveFirst_still hq _ _

theorem resolveAfresh_still (scope : Scope) (name : List Char) :
    Still (scope.resolveAfresh env name) := by
  refine .bind (find_still hq _ _) fun found => ?_
  split
  · exact .bind (getter_still hq _ _) fun _ => .pure _
  · exact .pure _

end Lookups

end Stencil
