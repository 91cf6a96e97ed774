import Stencil.Proofs.Lookup.Chain
import Stencil.Proofs.Render.Likeness

/-!
# What frames remember

The memo of the frame at hand changes through lookups alone: sections put it aside and
take it up again, partials and texts rendered for lambdas go on with it. So what every
lookup in a frame leaves true of its memo stays true for good, and a name that was
resolved once stands for the same value in its frame from then on, whatever getters and
accessors would answer later.
-/

set_option autoImplicit false

namespace Stencil

variable {σ κ α β : Type}

namespace Act

theorem bind_of_ok {act : Act σ κ α} {w u : World σ κ} {a : α} (h : act w = .ok (a, u))
    (f : α → Act σ κ β) : (act >>= f) w = f a u := by
  show (act w >>= fun x => f x.1 x.2) = _
  rw [h]
  rfl

theorem parse_eq (lib : Library κ) (d : Delimiters) (source : String) (w : World σ κ) :
    Act.parse lib d source w =
      .ok (.parse d source, { w with library := (lib.parse d source w.library).2 }) := by
  rw [← lib.faithful d source w.library]
  rfl

section Lookup

variable (env : Env σ) (scope : Scope) {key : String} {w : World σ κ}

theorem lookup_resolve (key : String) (w : World σ κ) :
    Act.lookup env scope key w = (fun a : (Option Value × Memo) × σ => (fun o : Value × σ =>
      .ok (o.1, { w with host := o.2, memo := a.1.2 })) (Key.valued env key a.1.1 a.2))
      (scope.resolve env (Query.lookup key).name.toList w.memo w.host) := by
  by_cases hp : Key.hasPipeline key.toList
  · simp only [Act.lookup, Scope.lookup, Query.name, Key.valued, if_pos hp, String.toList_ofList]
    rfl
  · simp only [Act.lookup, Scope.lookup, Query.name, Key.valued, if_neg hp]
    rfl

theorem lookup_hit {r : Option Value} (h : w.memo.lookup (Query.lookup key).name = some r) :
    Act.lookup env scope key w =
      (fun o : Value × σ => .ok (o.1, { w with host := o.2 })) (Key.valued env key r w.host) := by
  rw [lookup_resolve, Scope.resolve_eq, String.ofList_toList, h]

theorem lookup_miss (h : w.memo.lookup (Query.lookup key).name = none) :
    Act.lookup env scope key w = (fun a : Option Value × σ => (fun o : Value × σ =>
      .ok (o.1, { w with host := o.2, memo := ((Query.lookup key).name, a.1) :: w.memo }))
      (Key.valued env key a.1 a.2))
      (scope.resolveAfresh env (Query.lookup key).name.toList w.host) := by
  rw [lookup_resolve, Scope.resolve_eq, String.ofList_toList, h]

theorem lookup_own {fields : List (String × Value)} {outer : List Value} {v : Value}
    (hp : Key.hasPipeline key.toList = false) (hn : Key.head key.toList = (key.toList, none))
    (hd : key.toList.head? ≠ some '.') (hv : Table.get? key fields = some v)
    (hg : ∀ id, v ≠ .getter id) (hm : w.memo = []) :
    Act.lookup env ⟨.object fields, outer⟩ key w =
      .ok (v, { w with memo := [(key, some v)] }) := by
  have hname : (Query.lookup key).name = key := if_neg (by simp [hp])
  have hvalue : Key.valued env key (some v) = pure v := if_neg (by simp [hp])
  have hfound : Scope.resolveAfresh env ⟨.object fields, outer⟩ key.toList = pure (some v) :=
    Scope.resolveAfresh_own hn hd (by rwa [String.ofList_toList]) hg
  rw [lookup_miss env _ (by rw [hm]; rfl), hname, hfound, hm]
  exact congrArg (fun o : Value × σ =>
    Except.ok (o.1, { w with host := o.2, memo := [(key, some v)] })) (congrFun hvalue w.host)

/-- A lookup gives the value of what its frame remembers from then on. -/
theorem lookup_answered (key : String) (w : World σ κ) :
    ∃ r s u, Act.lookup env scope key w = .ok ((Key.valued env key r s).1, u) ∧
      u.memo.lookup (Query.lookup key).name = some r := by
  cases h : w.memo.lookup (Query.lookup key).name with
  | some r => exact ⟨r, _, _, lookup_hit env scope h, h⟩
  | none => exact ⟨_, _, _, lookup_miss env scope h, List.lookup_cons_self⟩

end Lookup

def Keeps (P : Memo → Prop) (act : Act σ κ α) : Prop :=
  ∀ ⦃w u : World σ κ⦄ ⦃a : α⦄, act w = .ok (a, u) → P w.memo → P u.memo

namespace Keeps

variable {P : Memo → Prop}

theorem pure (a : α) : (Pure.pure a : Act σ κ α).Keeps P := by
  intro w u b h hw
  cases h
  exact hw

theorem bind {act : Act σ κ α} {f : α → Act σ κ β} (h : act.Keeps P) (hf : ∀ a, (f a).Keeps P) :
    (act >>= f).Keeps P := by
  intro w u b hb hw
  obtain ⟨a, v, ha, hab⟩ := bind_ok.1 hb
  exact hf a hab (h ha hw)

theorem fault (f : RenderFault) : (Act.fault f : Act σ κ α).Keeps P := by
  intro w u a h
  cases h

theorem parse (lib : Library κ) (d : Delimiters) (source : String) :
    (Act.parse lib d source : Act σ κ Template).Keeps P := by
  intro w u t h hw
  cases h
  exact hw

theorem source (partials : Partials σ) (name : String) :
    (Act.source partials name : Act σ κ (Option String)).Keeps P := by
  intro w u found h hw
  cases h
  exact hw

theorem skip (name : String) : (Act.skip name : Act σ κ Unit).Keeps P := by
  intro w u a h hw
  cases h
  exact hw

theorem inFrame (act : Act σ κ α) : (Act.inFrame act).Keeps P := by
  intro w u a h hw
  unfold Act.inFrame at h
  split at h
  · cases h
    exact hw
  · cases h

theorem forEach {act : Value → Act σ κ String} (h : ∀ v, (act v).Keeps P) (vs : List Value) :
    (Setting.forEach act vs).Keeps P := by
  induction vs with
  | nil => exact .pure _
  | cons v vs ih => exact .bind (h v) fun _ => .bind ih fun _ => .pure _

theorem run {callback : String → Act σ κ String} (hc : ∀ text, (callback text).Keeps P)
    (h : Handling σ) : (h.run callback).Keeps P := by
  induction h with
  | answer v s =>
    intro w u a ha hw
    rw [Handling.run] at ha
    cases ha
    exact hw
  | render text s resume ih =>
    intro w u a ha hw
    rw [Handling.run_render] at ha
    cases ho : callback text { w with host := s } with
    | error f =>
      rw [ho] at ha
      cases ha
    | ok r =>
      obtain ⟨out, v⟩ := r
      rw [ho] at ha
      exact ih out v.host ha (hc text ho hw)

theorem lambda {callback : String → Act σ κ String} (hc : ∀ text, (callback text).Keeps P)
    (host : Host σ) (id : Nat) (body : String) :
    Keeps P fun w => (host.lambda id body w.host).run callback w :=
  fun w _ _ ha hw => run hc (host.lambda id body w.host) ha hw

theorem lookup (env : Env σ) (scope : Scope) (key name : String) (r : Option Value) :
    (Act.lookup env scope key : Act σ κ Value).Keeps fun memo => memo.lookup name = some r := by
  intro w u a ha hw
  cases hm : w.memo.lookup (Query.lookup key).name with
  | some r' =>
    rw [lookup_hit env scope hm] at ha
    cases ha
    exact hw
  | none =>
    rw [lookup_miss env scope hm] at ha
    cases ha
    exact Memo.lookup_kept hw hm _

end Keeps

end Act

structure Detours.Keep (P : Memo → Prop) (scope : Scope) (go : Detours σ κ) : Prop where
  insert : ∀ name, (go.insert name scope).Keeps P
  callback : ∀ text, (go.callback text scope).Keeps P

namespace Setting

variable {st : Setting σ κ} {P : Memo → Prop} {scope : Scope}

theorem sectionText_keeps {go : Detours σ κ} (hgo : go.Keep P scope) (source : String)
    (body : Span) (cs : List Node) (v : Value) :
    (st.sectionText go source scope body cs v).Keeps P := by
  cases v.branch with
  | lambda id =>
    have hrun := Act.Keeps.lambda hgo.callback st.env.host id
      (String.ofList (body.slice source.toList))
    exact hrun.bind fun _ => .pure _
  | array items => exact .forEach (fun _ => .inFrame _) items
  | frame hv =>
    rw [sectionText_frame _ _ _ _ _ _ hv]
    split
    · exact .inFrame _
    · exact .pure _

mutual

theorem renderNode_keeps (hl : ∀ key, (Act.lookup st.env scope key : Act σ κ Value).Keeps P)
    {go : Detours σ κ} (hgo : go.Keep P scope) (source : String) (n : Node) :
    (st.renderNode go source scope n).Keeps P := by
  cases n with
  | text t span => exact .pure _
  | comment t span => exact .pure _
  | variableTag name escaped span => exact .bind (hl name) fun _ => .pure _
  | partialTag name span => exact hgo.insert name
  | sectionTag name inverted span body cs =>
    cases inverted with
    | true =>
      refine .bind (hl name) fun v => ?_
      split
      · exact renderNodes_keeps hl hgo source cs
      · exact .pure _
    | false =>
      rw [renderNode_section]
      exact .bind (hl name) fun v => sectionText_keeps hgo source body cs v

theorem renderNodes_keeps (hl : ∀ key, (Act.lookup st.env scope key : Act σ κ Value).Keeps P)
    {go : Detours σ κ} (hgo : go.Keep P scope) (source : String) (ns : List Node) :
    (st.renderNodes go source scope ns).Keeps P := by
  cases ns with
  | nil => exact .pure _
  | cons n ns =>
    exact .bind (renderNode_keeps hl hgo source n) fun _ =>
      .bind (renderNodes_keeps hl hgo source ns) fun _ => .pure _

end

variable (hl : ∀ key, (Act.lookup st.env scope key : Act σ κ Value).Keeps P)
include hl

theorem renderSource_keeps {go : Detours σ κ} (hgo : go.Keep P scope) (source : String) :
    (st.renderSource go source scope).Keeps P :=
  .bind (.parse _ _ _) fun t => renderNodes_keeps hl hgo t.source t.nodes

/-- What every lookup in a frame keeps, partials and texts for lambdas keep as well. -/
theorem detours_keep (lambdas partials : Nat) : (st.detours lambdas partials).Keep P scope := by
  constructor
  case insert =>
    intro name
    cases partials with
    | zero =>
      rw [detours_insert_zero]
      exact .bind (.skip name) fun _ => .pure _
    | succ p =>
      rw [detours_insert_succ]
      refine .bind (.source _ name) fun found => ?_
      cases found with
      | none => exact .pure _
      | some source => exact renderSource_keeps hl (detours_keep lambdas p) source
  case callback =>
    intro text
    cases lambdas with
    | zero =>
      rw [detours_callback_zero]
      exact .fault _
    | succ l =>
      rw [detours_callback_succ]
      exact renderSource_keeps hl (detours_keep l partials) text
termination_by lambdas + partials

end Setting

end Stencil
