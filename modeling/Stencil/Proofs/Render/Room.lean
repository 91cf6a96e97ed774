import Stencil.Proofs.Render.Likeness

/-!
# Room for lambdas

A rendering that comes to an end comes to the same end with more room for lambdas. So
the room decides only which renderings are given up.
-/

set_option autoImplicit false

namespace Stencil

variable {σ κ α β : Type}

def Act.Extends (act act' : Act σ κ α) : Prop := ∀ ⦃w r⦄, act w = .ok r → act' w = .ok r

namespace Act.Extends

theorem refl (act : Act σ κ α) : act.Extends act := fun _ _ h => h

theorem fault (f : RenderFault) (act : Act σ κ α) : (Act.fault f).Extends act :=
  fun _ _ h => by cases h

theorem bind {act act' : Act σ κ α} {f f' : α → Act σ κ β} (h : act.Extends act')
    (hf : ∀ a, (f a).Extends (f' a)) : (act >>= f).Extends (act' >>= f') := by
  rintro w ⟨b, v⟩ hb
  obtain ⟨a, u, ha, hu⟩ := bind_ok.1 hb
  exact bind_ok.2 ⟨a, u, h ha, hf a hu⟩

theorem inFrame {act act' : Act σ κ α} (h : act.Extends act') :
    (Act.inFrame act).Extends (Act.inFrame act') := by
  intro w r hr
  rw [inFrame_eq] at hr ⊢
  cases ha : act { w with memo := [] } with
  | ok a => rwa [h ha, ← ha]
  | error f =>
    rw [ha] at hr
    cases hr

theorem forEach {act act' : Value → Act σ κ String} (h : ∀ v, (act v).Extends (act' v))
    (vs : List Value) : (Setting.forEach act vs).Extends (Setting.forEach act' vs) := by
  induction vs with
  | nil => exact refl _
  | cons v vs ih => exact bind (h v) fun _ => bind ih fun _ => refl _

theorem run {callback callback' : String → Act σ κ String}
    (h : ∀ text, (callback text).Extends (callback' text)) (handling : Handling σ) :
    (handling.run callback).Extends (handling.run callback') := by
  induction handling with
  | answer v s => exact refl _
  | render text s resume ih =>
    intro w r hr
    rw [Handling.run_render_eq] at hr ⊢
    cases hc : callback text { w with host := s } with
    | ok a =>
      rw [hc] at hr
      rw [h text hc]
      exact ih a.1 a.2.host hr
    | error f =>
      rw [hc] at hr
      cases hr

theorem result_ok {act act' : Act σ κ α} (h : act.Extends act') {w : World σ κ} {a : α}
    (ha : act.result w = .ok a) : act'.result w = .ok a := by
  cases hr : act w with
  | error f =>
    rw [result, hr] at ha
    cases ha
  | ok r =>
    rw [result, hr] at ha
    rw [result, h hr, ha]

end Act.Extends

structure Detours.Extends (go go' : Detours σ κ) : Prop where
  insert : ∀ name scope, (go.insert name scope).Extends (go'.insert name scope)
  callback : ∀ text scope, (go.callback text scope).Extends (go'.callback text scope)

namespace Setting

def limited (st : Setting σ κ) (limit : Nat) : Setting σ κ := { st with lambdaLimit := limit }

variable (st : Setting σ κ) (limit : Nat) {go go' : Detours σ κ}

theorem sectionText_extends (hgo : go.Extends go') (source : String) (scope : Scope)
    (body : Span) {cs : List Node} (hcs : ∀ scope : Scope, (st.renderNodes go source scope cs).Extends
      ((st.limited limit).renderNodes go' source scope cs)) (v : Value) :
    (st.sectionText go source scope body cs v).Extends
      ((st.limited limit).sectionText go' source scope body cs v) := by
  have hframe := fun v => Act.Extends.inFrame (hcs (scope.push v))
  cases v.branch with
  | lambda id =>
    exact .bind (.refl _) fun w =>
      .bind (.run (fun text => hgo.callback text scope) _) fun _ => .refl _
  | array items => exact .forEach hframe items
  | frame hv =>
    rw [sectionText_frame _ _ _ _ _ _ hv, sectionText_frame _ _ _ _ _ _ hv]
    split
    · exact hframe v
    · exact .refl _

mutual

theorem renderNode_extends (hgo : go.Extends go') (source : String) (scope : Scope) (n : Node) :
    (st.renderNode go source scope n).Extends
      ((st.limited limit).renderNode go' source scope n) := by
  cases n with
  | text t span => exact .refl _
  | comment t span => exact .refl _
  | variableTag name escaped span => exact .refl _
  | partialTag name span => exact hgo.insert name scope
  | sectionTag name inverted span body cs =>
    have hcs := fun scope => renderNodes_extends hgo source scope cs
    cases inverted with
    | true =>
      refine .bind (.refl _) fun v => ?_
      split
      · exact hcs scope
      · exact .refl _
    | false =>
      rw [renderNode_section, renderNode_section]
      exact .bind (.refl _) fun v => sectionText_extends st limit hgo source scope body hcs v

theorem renderNodes_extends (hgo : go.Extends go') (source : String) (scope : Scope)
    (ns : List Node) :
    (st.renderNodes go source scope ns).Extends
      ((st.limited limit).renderNodes go' source scope ns) := by
  cases ns with
  | nil => exact .refl _
  | cons n ns =>
    exact .bind (renderNode_extends hgo source scope n) fun _ =>
      .bind (renderNodes_extends hgo source scope ns) fun _ => .refl _

end

theorem renderSource_extends (hgo : go.Extends go') (source : String) (scope : Scope) :
    (st.renderSource go source scope).Extends
      ((st.limited limit).renderSource go' source scope) :=
  .bind (.refl _) fun t => renderNodes_extends st limit hgo t.source scope t.nodes

theorem detours_extend {lambdas lambdas' : Nat} (h : lambdas ≤ lambdas') (partials : Nat) :
    (st.detours lambdas partials).Extends ((st.limited limit).detours lambdas' partials) := by
  constructor
  case insert =>
    intro name scope
    cases partials with
    | zero =>
      rw [detours_insert_zero, detours_insert_zero]
      exact .refl _
    | succ p =>
      rw [detours_insert_succ, detours_insert_succ]
      refine .bind (.refl _) fun found => ?_
      cases found with
      | none => exact .refl _
      | some source => exact renderSource_extends st limit (detours_extend h p) source scope
  case callback =>
    intro text scope
    cases lambdas with
    | zero =>
      rw [detours_callback_zero]
      exact .fault _ _
    | succ l =>
      obtain ⟨l', rfl⟩ : ∃ l', lambdas' = l' + 1 := ⟨lambdas' - 1, by omega⟩
      rw [detours_callback_succ, detours_callback_succ]
      exact renderSource_extends st limit (detours_extend (by omega) partials) text scope
termination_by lambdas + partials

/-- With more room for lambdas a rendering gives what it gave and leaves the same behind,
unless it was given up. -/
theorem render_extends {limit : Nat} (h : st.lambdaLimit ≤ limit) (t : Template)
    (data : Value) : (st.render t data).Extends ((st.limited limit).render t data) :=
  renderNodes_extends st limit (detours_extend st limit h partialLimit) t.source ⟨data, []⟩ t.nodes

/-- Renderings that come to an end under two limits come to the same one. -/
theorem render_limits_agree {limit limit' : Nat} {t : Template} {data : Value} {w : World σ κ}
    {r r' : String × World σ κ} (h : (st.limited limit).render t data w = .ok r)
    (h' : (st.limited limit').render t data w = .ok r') : r = r' := by
  rcases Nat.le_total limit limit' with hle | hle
  · exact Except.ok.inj ((render_extends (st.limited limit) hle t data h).symm.trans h')
  · exact Except.ok.inj (h.symm.trans (render_extends (st.limited limit') hle t data h'))

end Setting

end Stencil
