import Stencil.Proofs.Lookup.Muted

/-!
# Paths in segments

Where nothing answers keys, a path is walked a segment at a time, so what it finds is told
by its segments alone. Cut at any of its dots, a path finds what its second half finds from
what its first half does. So a section that a name opens and a name with a dot in front
inside of it find what both names find in one.
-/

set_option autoImplicit false

namespace Stencil

open Text

variable {σ : Type}

namespace Value

/-- Nothing in the value answers keys, at any depth. What is called may be in it. -/
inductive Mute : Value → Prop
  | null : Mute .null
  | bool {b : Bool} : Mute (.bool b)
  | int {i : Int64} : Mute (.int i)
  | float {f : Float} : Mute (.float f)
  | string {s : String} : Mute (.string s)
  | array {items : List Value} : (∀ v ∈ items, v.Mute) → Mute (.array items)
  | object {fields : List (String × Value)} : (∀ e ∈ fields, e.2.Mute) → Mute (.object fields)
  | getter {id : Nat} : Mute (.getter id)
  | lambda {id : Nat} : Mute (.lambda id)

theorem Mute.property {v w : Value} (h : v.Mute) {name : String} (hw : v.property name = some w) :
    w.Mute := by
  cases h with
  | array hitems =>
    simp only [Value.property] at hw
    split at hw
    · cases hw
      exact .int
    · obtain ⟨i, -, hi⟩ := Option.bind_eq_some_iff.1 hw
      exact hitems w (List.mem_of_getElem? hi)
  | object hfields => exact hfields _ (Table.mem_of_get? hw)
  | string =>
    simp only [Value.property] at hw
    split at hw
    · cases hw
      exact .int
    · cases hw
  | null | bool | int | float | getter | lambda => cases hw

def reach (v : Value) (path : List Char) : Option Value :=
  (cutAt (· == '.') path).foldlM (fun w s => w.property (String.ofList s)) v

theorem reach_cut (v : Value) (p q : List Char) :
    v.reach (p ++ '.' :: q) = (v.reach p).bind fun w => w.reach q := by
  rw [reach, cutAt_cut (by decide), List.foldlM_append]
  rfl

theorem Mute.reach {v w : Value} (h : v.Mute) {path : List Char} (hw : v.reach path = some w) :
    w.Mute := by
  rw [Value.reach] at hw
  generalize cutAt (· == '.') path = segments at hw
  induction segments generalizing v with
  | nil =>
    cases hw
    exact h
  | cons s segments ih =>
    obtain ⟨u, hu, hw⟩ := Option.bind_eq_some_iff.1 hw
    exact ih (h.property hu) hw

end Value

section Mute

variable (env : Env σ)

theorem ask_never {v : Value} (h : v.Mute) (key : List Char) : ask? env v key = none := by
  cases h <;> rfl

theorem walkOwn_reach {v : Value} (h : v.Mute) (path : List Char) :
    walkOwn env v path = pure (v.reach path) := by
  rw [walkOwn, Value.reach, Key.cutAt_head, List.foldlM_cons]
  cases hv : v.property (String.ofList (Key.head path).1) with
  | none => rfl
  | some w =>
    have hw := h.property hv
    cases hr : (Key.head path).2 with
    | none => exact walk_end env w
    | some r =>
      have hlt := Key.head_length_lt hr
      exact (walk_mute (ask_never env hw r)).trans (walkOwn_reach hw r)
termination_by path.length

theorem walkOwn_some {v w : Value} (h : v.Mute) (path : List Char) (st : σ) :
    walkOwn env v path st = (some w, st) ↔ v.reach path = some w := by
  rw [walkOwn_reach env h]
  exact ⟨congrArg Prod.fst, fun hw => by rw [hw]; rfl⟩

theorem walkOwn_cut {v : Value} (h : v.Mute) (p q : List Char) (st : σ) (x : Value) :
    walkOwn env v (p ++ '.' :: q) st = (some x, st) ↔
      ∃ w, walkOwn env v p st = (some w, st) ∧ walkOwn env w q st = (some x, st) := by
  rw [walkOwn_some env h, Value.reach_cut, Option.bind_eq_some_iff]
  refine exists_congr fun w => ?_
  rw [walkOwn_some env h]
  exact and_congr_right fun hw => (walkOwn_some env (h.reach hw) q st).symm

theorem resolveLocal_reach {v : Value} (h : v.Mute) (name : List Char) :
    resolveLocal env v name = pure (v.reach name) := by
  rw [resolveLocal, ask_never env h]
  exact walkOwn_reach env h name

theorem resolveFirst_reach {vs : List Value} (h : ∀ v ∈ vs, v.Mute) (name : List Char) :
    resolveFirst env name vs = pure (vs.findSome? fun v => v.reach name) := by
  induction vs with
  | nil => rfl
  | cons v vs ih =>
    rw [List.forall_mem_cons] at h
    rw [resolveFirst, resolveLocal_reach env h.1, pure_bind, List.findSome?_cons]
    cases v.reach name with
    | some w => rfl
    | none => exact ih h.2

end Mute

namespace Scope

variable (env : Env σ)

theorem find_reach {s : Scope} {name : List Char} (hd : name ≠ ['.'])
    (h : ∀ v ∈ s.asked name, v.Mute) :
    s.find env name = pure ((s.asked name).findSome? fun v => v.reach (dropDot name)) := by
  rw [find_eq env s hd]
  rw [asked] at h ⊢
  split
  · next hdot =>
    rw [if_pos hdot] at h
    rw [resolveLocal_reach env (h _ (List.mem_singleton_self _))]
    simp
  · next hdot =>
    rw [if_neg hdot] at h
    exact resolveFirst_reach env h _

theorem asked_own {v : Value} {outer : List Value} {name : List Char}
    (h : name.head? = some '.' ∨ outer = []) : asked ⟨v, outer⟩ name = [v] := by
  rw [asked]
  split
  · rfl
  · next hdot => rw [h.resolve_left hdot]

theorem asked_mute {v : Value} {outer : List Value} (hv : v.Mute) (ho : ∀ u ∈ outer, u.Mute)
    (name : List Char) : ∀ u ∈ asked ⟨v, outer⟩ name, u.Mute := by
  rw [asked]
  split
  · exact List.forall_mem_singleton.2 hv
  · exact List.forall_mem_cons.2 ⟨hv, ho⟩

theorem asked_cut (s : Scope) {name : List Char} (hn : name ≠ []) (q : List Char) :
    s.asked (name ++ '.' :: q) = s.asked name := by
  rw [asked, asked, List.head?_append_of_ne_nil _ hn]

/-- What a name with a dot in front finds in the frame of a section: the section's name is
looked up, and the rest of a path in what it is found to be. -/
def findWithin (env : Env σ) (s : Scope) (name q : List Char) : StateM σ (Option Value) := do
  match ← s.find env name with
  | none => pure none
  | some w => (s.push w).find env ('.' :: q)

end Scope

theorem dropDot_cut {name : List Char} (hn : name ≠ []) (q : List Char) :
    dropDot (name ++ '.' :: q) = dropDot name ++ '.' :: q := by
  obtain ⟨c, r, rfl⟩ := List.exists_cons_of_ne_nil hn
  by_cases hc : c = '.'
  · subst hc
    rfl
  · rw [dropDot_of_ne fun t he => hc (List.cons.inj he).1, List.cons_append,
      dropDot_of_ne fun t he => hc (List.cons.inj he).1]

namespace Scope

variable (env : Env σ)

theorem findWithin_reach {s : Scope} {name q : List Char} (hd : name ≠ ['.']) (hq : q ≠ [])
    (h : ∀ v ∈ s.asked name, v.Mute) :
    s.findWithin env name q =
      pure (((s.asked name).findSome? fun v => v.reach (dropDot name)).bind fun w => w.reach q) := by
  rw [findWithin, find_reach env hd h, pure_bind]
  cases hf : (s.asked name).findSome? fun v => v.reach (dropDot name) with
  | none => rfl
  | some w =>
    obtain ⟨v, hv, hw⟩ := List.exists_of_findSome?_eq_some hf
    exact (find_own env (s.push w) hq).trans (resolveLocal_reach env ((h v hv).reach hw) q)

theorem find_cut_reach {s : Scope} {name q : List Char} (hn : name ≠ [])
    (h : ∀ v ∈ s.asked name, v.Mute) :
    s.find env (name ++ '.' :: q) =
      pure ((s.asked name).findSome? fun v =>
        (v.reach (dropDot name)).bind fun w => w.reach q) := by
  have hne : name ++ '.' :: q ≠ ['.'] := by
    intro he
    have hlen := congrArg List.length he
    rw [List.length_append, List.length_cons, List.length_singleton] at hlen
    exact hn (List.length_eq_zero_iff.1 (by omega))
  rw [find_reach env hne (by rwa [asked_cut s hn]), asked_cut s hn, dropDot_cut hn]
  simp only [Value.reach_cut]

end Scope

/-- What the first of some values with a part of a path has for the rest of it, the first
value with the whole path has. -/
theorem findSome?_of_bind {α β γ : Type} {f : α → Option β} {g : β → Option γ} {xs : List α} {c : γ}
    (h : (xs.findSome? f).bind g = some c) : (xs.findSome? fun a => (f a).bind g) = some c := by
  obtain ⟨b, hb, hc⟩ := Option.bind_eq_some_iff.1 h
  obtain ⟨as, a, bs, rfl, ha, hn⟩ := List.findSome?_eq_some_iff.1 hb
  refine List.findSome?_eq_some_iff.2 ⟨as, a, bs, rfl, ?_, fun u hu => ?_⟩
  · rw [ha]
    exact hc
  · rw [hn u hu]
    rfl

/-- Paths compose in values where nothing answers keys. A path walked from such a value gives
something exactly if its half before a dot does and its half behind that dot, walked from
there, does; then it gives that, and no walk has effects. So it is the same where a path is
cut into the name of a section and a name with a dot in front inside of it, as long as the
section's name is looked up in one frame. With more frames around, the halves find nothing
that the path does not find as a whole. What is found may be a getter: it is not called
yet. A dot by itself is no name with a dot in front but the frame. -/
theorem Value.Mute.paths_compose {v : Value} (h : v.Mute) (env : Env σ) :
    (∀ path st, (walkOwn env v path st).2 = st) ∧
    (∀ p q st x, walkOwn env v (p ++ '.' :: q) st = (some x, st) ↔
      ∃ w, walkOwn env v p st = (some w, st) ∧ walkOwn env w q st = (some x, st)) ∧
    ∀ outer name q, name ≠ [] → name ≠ ['.'] → q ≠ [] →
      (name.head? = some '.' ∨ outer = [] →
        Scope.findWithin env ⟨v, outer⟩ name q = Scope.find env ⟨v, outer⟩ (name ++ '.' :: q)) ∧
      ((∀ u ∈ outer, u.Mute) → ∀ st x,
        Scope.findWithin env ⟨v, outer⟩ name q st = (some x, st) →
        Scope.find env ⟨v, outer⟩ (name ++ '.' :: q) st = (some x, st)) := by
  refine ⟨fun path st => ?_, fun p q st x => walkOwn_cut env h p q st x,
    fun outer name q hn hd hq => ⟨fun ha => ?_, fun hmute st x hx => ?_⟩⟩
  · rw [walkOwn_reach env h]
    rfl
  · have hasked : Scope.asked ⟨v, outer⟩ name = [v] := Scope.asked_own ha
    have hall : ∀ u ∈ Scope.asked ⟨v, outer⟩ name, u.Mute := by
      rw [hasked]
      exact List.forall_mem_singleton.2 h
    rw [Scope.findWithin_reach env hd hq hall, Scope.find_cut_reach env hn hall, hasked,
      List.findSome?_singleton, List.findSome?_singleton]
  · have hall := Scope.asked_mute h hmute name
    rw [Scope.findWithin_reach env hd hq hall] at hx
    rw [Scope.find_cut_reach env hn hall, findSome?_of_bind (congrArg Prod.fst hx)]
    rfl

/-- A position with a plus sign and zeros in front, and a length, on the way from a value
with a getter in it. -/
theorem Value.Mute.paths_compose_indexed :
    let v : Value := .object [("user", .object [("now", .getter 0),
      ("tags", .array [.string "x", .string "yz"])])]
    let env : Env Unit := ⟨Host.plain, Standard.formatters⟩
    v.Mute ∧
      walkOwn env v "user.tags.+01.length".toList () = (some (.count 2), ()) ∧
      ∃ w, walkOwn env v "user.tags".toList () = (some w, ()) ∧
        walkOwn env w "+01.length".toList () = (some (.count 2), ()) := by
  intro v env
  have h : v.Mute := by
    refine .object (List.forall_mem_singleton.2 (.object ?_))
    refine List.forall_mem_cons.2 ⟨.getter, List.forall_mem_singleton.2 (.array ?_)⟩
    exact List.forall_mem_cons.2 ⟨.string, List.forall_mem_singleton.2 .string⟩
  have hwhole : walkOwn env v "user.tags.+01.length".toList () = (some (.count 2), ()) := by
    rw [walkOwn_some env h]
    rfl
  exact ⟨h, hwhole, ((h.paths_compose env).2.1 "user.tags".toList "+01.length".toList () _).1 hwhole⟩

end Stencil
