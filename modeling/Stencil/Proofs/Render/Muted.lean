import Stencil.Proofs.Lookup.Muted
import Stencil.Proofs.Render.Likeness

/-!
# Rendering with accessors that fail

Whether an accessor fails or does not have a key makes no difference to any lookup, so it
makes none to what is rendered.
-/

set_option autoImplicit false

namespace Stencil

variable {σ κ : Type}

theorem Act.lookup_muted (which : Nat → Bool) (env : Env σ) (scope : Scope) (key : String) :
    (Act.lookup (env.muted which) scope key : Act σ κ Value) = Act.lookup env scope key := by
  funext w
  rw [Act.lookup, Act.lookup, Scope.lookup_muted]

theorem Detours.ext_fields {go go' : Detours σ κ} (hi : go.insert = go'.insert)
    (hc : go.callback = go'.callback) : go = go' := by
  cases go
  cases go'
  cases hi
  cases hc
  rfl

namespace Setting

/-- The setting whose accessors of the handles in `which` do not have the keys that they
failed to look up. -/
def muted (which : Nat → Bool) (st : Setting σ κ) : Setting σ κ :=
  { st with env := st.env.muted which }

variable (which : Nat → Bool) (st : Setting σ κ)

theorem sectionText_muted (go : Detours σ κ) (source : String) (scope : Scope) (body : Span)
    {cs : List Node} (h : ∀ scope : Scope, (st.muted which).renderNodes go source scope cs =
      st.renderNodes go source scope cs) (v : Value) :
    (st.muted which).sectionText go source scope body cs v =
      st.sectionText go source scope body cs v := by
  cases v.branch with
  | lambda id => rfl
  | array items => simp only [sectionText, h]
  | frame hv => rw [sectionText_frame _ _ _ _ _ _ hv, sectionText_frame _ _ _ _ _ _ hv, h]

mutual

theorem renderNode_muted (go : Detours σ κ) (source : String) (scope : Scope) (n : Node) :
    (st.muted which).renderNode go source scope n = st.renderNode go source scope n := by
  cases n with
  | text t span => rfl
  | comment t span => rfl
  | partialTag name span => rfl
  | variableTag name escaped span => rw [renderNode, renderNode, muted, Act.lookup_muted]
  | sectionTag name inverted span body cs =>
    have hcs := fun scope => renderNodes_muted go source scope cs
    have hl : (Act.lookup (st.muted which).env scope name : Act σ κ Value) =
        Act.lookup st.env scope name := Act.lookup_muted which st.env scope name
    cases inverted with
    | true => rw [renderNode, renderNode, hl, hcs]
    | false =>
      rw [renderNode_section, renderNode_section, hl]
      exact bind_congr fun v => sectionText_muted which st go source scope body hcs v

theorem renderNodes_muted (go : Detours σ κ) (source : String) (scope : Scope)
    (ns : List Node) :
    (st.muted which).renderNodes go source scope ns = st.renderNodes go source scope ns := by
  cases ns with
  | nil => rfl
  | cons n ns =>
    rw [renderNodes, renderNodes, renderNode_muted go source scope n,
      renderNodes_muted go source scope ns]

end

theorem renderSource_muted (go : Detours σ κ) (source : String) (scope : Scope) :
    (st.muted which).renderSource go source scope = st.renderSource go source scope :=
  bind_congr fun t => renderNodes_muted which st go t.source scope t.nodes

theorem detours_muted (lambdas partials : Nat) :
    (st.muted which).detours lambdas partials = st.detours lambdas partials := by
  apply Detours.ext_fields
  case hi =>
    funext name scope
    cases partials with
    | zero => rw [detours_insert_zero, detours_insert_zero]
    | succ p =>
      rw [detours_insert_succ, detours_insert_succ, detours_muted lambdas p]
      refine bind_congr fun found => ?_
      cases found with
      | none => rfl
      | some source => exact renderSource_muted which st _ source scope
  case hc =>
    funext text scope
    cases lambdas with
    | zero => rw [detours_callback_zero, detours_callback_zero]
    | succ l =>
      rw [detours_callback_succ, detours_callback_succ, detours_muted l partials,
        renderSource_muted]
termination_by lambdas + partials

/-- An accessor that fails cannot be told from one that does not have the key. If some
accessors no longer fail but have nothing wherever they failed, with the same effects,
then names resolve and keys are looked up in every chain of frames with the same result,
memos and effects, the frame that answers is the same one, and every rendering comes to
the same end. -/
theorem failing_unseen :
    (∀ (c : Context) (name : String) (s : σ),
      c.resolve (st.env.muted which) name s = c.resolve st.env name s) ∧
    (∀ (c : Context) (key : String) (s : σ),
      c.lookup (st.env.muted which) key s = c.lookup st.env key s) ∧
    (∀ (c : Context) (name : String) (s : σ),
      c.resolveLocal (st.env.muted which) name s = c.resolveLocal st.env name s) ∧
    (∀ (c : Context) (name : List Char),
      c.scope.answerer (st.env.muted which) name = c.scope.answerer st.env name ∧
        c.scope.find st.env name = Option.map Prod.snd <$> c.scope.answerer st.env name) ∧
    ∀ (t : Template) (data : Value) (w : World σ κ),
      (st.muted which).render t data w = st.render t data w := by
  refine ⟨fun c name s => ?_, fun c key s => ?_, fun c name s => ?_,
    fun c name => ⟨?_, c.scope.find_answerer st.env name⟩, fun t data w => ?_⟩
  · rw [Context.resolve, Context.resolve, Scope.resolve_muted]
  · rw [Context.lookup, Context.lookup, Scope.lookup_muted]
  · rw [Context.resolveLocal, Context.resolveLocal, resolveLocal_muted]
  · rw [Scope.answerer_muted]
  · rw [render, render, renderTemplate, renderTemplate, detours_muted, renderNodes_muted]
    rfl

end Setting

end Stencil
