import Stencil.Proofs.Render.Quiet
import Stencil.Render.Renderer

/-!
# Renderings that agree

Two worlds are alike in a frame if every name has the same value there, whether
it is remembered or not. If nothing that is called has effects, renderings of one
tree started in such worlds give the same text and end in such worlds again: what
frames remember cannot be seen in the text.
-/

set_option autoImplicit false

namespace Stencil

variable {σ κ α β : Type}

namespace Scope

def seen (env : Env σ) (scope : Scope) (s : σ) (memo : Memo) (name : String) : Option Value :=
  (memo.lookup name).getD (scope.resolveAfresh env name.toList s).1

def valueOf (env : Env σ) (scope : Scope) (s : σ) (memo : Memo) (key : List Char) : Value :=
  if Key.hasPipeline key then
    (env.host.run env.formatters (Key.parse key).steps
      ((scope.seen env s memo (String.ofList (Key.parse key).field)).getD .null) s).1
  else (scope.seen env s memo (String.ofList key)).getD .null

theorem resolve_eq (env : Env σ) (scope : Scope) (name : List Char) (memo : Memo) (s : σ) :
    scope.resolve env name memo s =
      match memo.lookup (String.ofList name) with
      | some hit => ((hit, memo), s)
      | none =>
        (((scope.resolveAfresh env name s).1,
          (String.ofList name, (scope.resolveAfresh env name s).1) :: memo),
          (scope.resolveAfresh env name s).2) := by
  show (match memo.lookup (String.ofList name) with
    | some hit => (pure hit : StateT Memo (StateM σ) (Option Value))
    | none => _) memo s = _
  cases memo.lookup (String.ofList name) with
  | some hit => rfl
  | none => rfl

section Quiet

variable {env : Env σ} (hq : env.host.Quiet)
include hq

/-- Resolving a name gives what it is in the frame, and remembering it changes nothing. -/
theorem resolve_seen (scope : Scope) (name : List Char) (memo : Memo) (s : σ) :
    ∃ memo', scope.resolve env name memo s =
        ((scope.seen env s memo (String.ofList name), memo'), s) ∧
      ∀ key, scope.seen env s memo' key = scope.seen env s memo key := by
  rw [resolve_eq]
  cases hm : memo.lookup (String.ofList name) with
  | some hit => exact ⟨memo, by simp [seen, hm], fun _ => rfl⟩
  | none =>
    have hs := resolveAfresh_still hq.steady scope name s
    refine ⟨(String.ofList name, (scope.resolveAfresh env name s).1) :: memo,
      by simp [seen, hm, hs], fun key => ?_⟩
    by_cases hk : key = String.ofList name
    · subst hk
      simp [seen, hm]
    · have hb : (key == String.ofList name) = false := by simpa using hk
      simp [seen, List.lookup_cons, hb]

theorem lookup_seen (scope : Scope) (key : List Char) (memo : Memo) (s : σ) :
    ∃ memo', scope.lookup env key memo s = ((scope.valueOf env s memo key, memo'), s) ∧
      ∀ name, scope.seen env s memo' name = scope.seen env s memo name := by
  by_cases hp : Key.hasPipeline key
  · obtain ⟨memo', hr, hs⟩ := resolve_seen hq scope (Key.parse key).field memo s
    refine ⟨memo', ?_, hs⟩
    rw [lookup, if_pos hp, valueOf, if_pos hp]
    show (fun r : (Option Value × Memo) × σ => (fun o : Value × σ => ((o.1, r.1.2), o.2))
      (env.host.run env.formatters (Key.parse key).steps (r.1.1.getD .null) r.2))
      (scope.resolve env (Key.parse key).field memo s) = _
    rw [hr]
    exact congrArg (Prod.mk _) (run_still hq.steady env.formatters _ _ s)
  · obtain ⟨memo', hr, hs⟩ := resolve_seen hq scope key memo s
    refine ⟨memo', ?_, hs⟩
    rw [lookup, if_neg hp, valueOf, if_neg hp]
    show (fun r : (Option Value × Memo) × σ => ((r.1.1.getD .null, r.1.2), r.2))
      (scope.resolve env key memo s) = _
    rw [hr]

end Quiet

theorem valueOf_congr {env : Env σ} {scope : Scope} {s : σ} {memo memo' : Memo}
    (h : ∀ name, scope.seen env s memo name = scope.seen env s memo' name) (key : List Char) :
    scope.valueOf env s memo key = scope.valueOf env s memo' key := by
  simp only [valueOf, h]

end Scope

def Partials.Still (partials : Partials σ) : Prop := ∀ name, Stencil.Still (partials name)

theorem Partials.table_still (find : String → Option String) : (table find : Partials σ).Still :=
  fun _ _ => rfl

/-- Nothing that a rendering calls has effects. -/
structure Setting.Quiet (st : Setting σ κ) : Prop where
  host : st.env.host.Quiet
  partials : st.partials.Still

structure World.Alike (env : Env σ) (scope : Scope) (w w' : World σ κ) : Prop where
  host : w.host = w'.host
  skipped : w.skipped = w'.skipped
  seen : ∀ name, scope.seen env w.host w.memo name = scope.seen env w'.host w'.memo name

namespace World.Alike

variable {env : Env σ} {scope : Scope} {w w' w'' : World σ κ}

theorem refl (w : World σ κ) : Alike env scope w w := ⟨rfl, rfl, fun _ => rfl⟩

theorem symm (h : Alike env scope w w') : Alike env scope w' w :=
  ⟨h.host.symm, h.skipped.symm, fun name => (h.seen name).symm⟩

theorem trans (h : Alike env scope w w') (h' : Alike env scope w' w'') :
    Alike env scope w w'' :=
  ⟨h.host.trans h'.host, h.skipped.trans h'.skipped,
    fun name => (h.seen name).trans (h'.seen name)⟩

end World.Alike

theorem Handling.run_render (callback : String → Act σ κ String) (text : String) (s : σ)
    (resume : String → σ → Handling σ) (w : World σ κ) :
    (Handling.render text s resume).run callback w =
      match callback text { w with host := s } with
      | .ok (out, w) => (resume out w.host).run callback w
      | .error f => .error f := by
  cases h : callback text { w with host := s } with
  | ok r => simp only [Handling.run, h]
  | error f => simp only [Handling.run, h]

namespace Act

def result (act : Act σ κ α) (w : World σ κ) : Except RenderFault α := (act w).map Prod.fst

theorem bind_ok {act : Act σ κ α} {f : α → Act σ κ β} {w v : World σ κ} {y : β} :
    (act >>= f) w = .ok (y, v) ↔ ∃ x u, act w = .ok (x, u) ∧ f x u = .ok (y, v) := by
  show (act w >>= fun r => f r.1 r.2) = _ ↔ _
  cases h : act w with
  | error e => simp [bind, Except.bind]
  | ok r =>
    obtain ⟨x, u⟩ := r
    simp [bind, Except.bind]

/-- A lookup gives the value of its key and leaves the frame as it looked. -/
theorem lookup_ok {env : Env σ} (hq : env.host.Quiet) (scope : Scope) (key : String)
    (w : World σ κ) :
    ∃ u, Act.lookup env scope key w = .ok (scope.valueOf env w.host w.memo key.toList, u) ∧
      w.Alike env scope u := by
  obtain ⟨memo, hl, hm⟩ := Scope.lookup_seen hq scope key.toList w.memo w.host
  refine ⟨{ w with memo := memo }, ?_, rfl, rfl, fun name => (hm name).symm⟩
  simp only [lookup, hl]

theorem source_still {partials : Partials σ} (hp : partials.Still) (name : String)
    (w : World σ κ) :
    Act.source partials name w = .ok ((partials name w.host).1, w) := by
  show Except.ok ((partials name w.host).1, { w with host := (partials name w.host).2 }) = _
  rw [hp name w.host]

/-- From alike worlds the computation comes to the same end and to alike worlds. -/
def Agrees (env : Env σ) (scope : Scope) (act : Act σ κ α) : Prop :=
  ∀ ⦃w w' : World σ κ⦄, w.Alike env scope w' → ∀ ⦃x : α⦄ ⦃v : World σ κ⦄, act w = .ok (x, v) →
    v.host = w.host ∧ ∃ v', act w' = .ok (x, v') ∧ v.Alike env scope v'

namespace Agrees

variable {env : Env σ} {scope : Scope}

theorem pure (x : α) : Agrees env scope (Pure.pure x : Act σ κ α) := by
  intro w w' hw y v h
  cases h
  exact ⟨rfl, w', rfl, hw⟩

theorem bind {act : Act σ κ α} {f : α → Act σ κ β} (h : Agrees env scope act)
    (hf : ∀ x, Agrees env scope (f x)) : Agrees env scope (act >>= f) := by
  intro w w' hw y v hy
  obtain ⟨x, u, hx, hxy⟩ := bind_ok.1 hy
  obtain ⟨hu, u', hx', huu⟩ := h hw hx
  obtain ⟨hv, v', hy', hvv⟩ := hf x huu hxy
  exact ⟨hv.trans hu, v', bind_ok.2 ⟨x, u', hx', hy'⟩, hvv⟩

theorem fault (f : RenderFault) : Agrees env scope (Act.fault f : Act σ κ α) := by
  intro w w' hw x v h
  cases h

theorem lookup (hq : env.host.Quiet) (key : String) :
    Agrees env scope (Act.lookup env scope key : Act σ κ Value) := by
  intro w w' hw x v h
  obtain ⟨u, hl, hu⟩ := lookup_ok hq scope key w
  obtain ⟨u', hl', hu'⟩ := lookup_ok hq scope key w'
  rw [hl] at h
  cases h
  refine ⟨hu.host.symm, u', ?_, hu.symm.trans (hw.trans hu')⟩
  have hseen : ∀ name, scope.seen env w.host w.memo name = scope.seen env w.host w'.memo name := by
    intro name
    rw [hw.seen name, hw.host]
  rw [hl', Scope.valueOf_congr hseen, hw.host]

/-- A frame pushed on alike frames starts with nothing remembered on both sides, and
what it remembers is dropped with it. -/
theorem inFrame {inner : Scope} {act : Act σ κ α} (h : Agrees env inner act) :
    Agrees env scope (Act.inFrame act) := by
  intro w w' hw x v hx
  unfold Act.inFrame at hx
  split at hx
  · next y u hu =>
    cases hx
    have hin : World.Alike env inner { w with memo := [] } { w' with memo := [] } :=
      ⟨hw.host, hw.skipped, fun name => by rw [hw.host]⟩
    obtain ⟨hh, u', hu', huu⟩ := h hin hu
    have hh' : u'.host = w'.host := by rw [← huu.host, hh, hw.host]
    refine ⟨hh, { u' with memo := w'.memo }, by simp [Act.inFrame, hu'], huu.host, huu.skipped,
      fun name => ?_⟩
    show scope.seen env u.host w.memo name = scope.seen env u'.host w'.memo name
    rw [hh, hh']
    exact hw.seen name
  · cases hx

theorem parse (lib : Library κ) (d : Delimiters) (source : String) :
    Agrees env scope (Act.parse lib d source : Act σ κ Template) := by
  intro w w' hw x v h
  cases h
  have hx : (lib.parse d source w.library).1 = (lib.parse d source w'.library).1 := by
    rw [lib.faithful, lib.faithful]
  refine ⟨rfl, { w' with library := (lib.parse d source w'.library).2 }, ?_, hw.host, hw.skipped,
    hw.seen⟩
  rw [hx]
  rfl

theorem source {partials : Partials σ} (hp : partials.Still) (name : String) :
    Agrees env scope (Act.source partials name : Act σ κ (Option String)) := by
  intro w w' hw found v h
  rw [source_still hp] at h
  cases h
  exact ⟨rfl, w', by rw [source_still hp, hw.host], hw⟩

theorem skip (name : String) : Agrees env scope (Act.skip name : Act σ κ Unit) := by
  intro w w' hw x v h
  cases h
  exact ⟨rfl, _, rfl, hw.host, by simp [hw.skipped], hw.seen⟩

/-- A lambda of a quiet host asks for the same texts from alike worlds. -/
theorem run {callback : String → Act σ κ String}
    (hc : ∀ text, Agrees env scope (callback text)) {s : σ} {h : Handling σ}
    (hs : h.Quiet s) {w w' : World σ κ} (hw : w.Alike env scope w') (hh : w.host = s) {x : Value}
    {v : World σ κ} (hx : h.run callback w = .ok (x, v)) :
    v.host = w.host ∧ ∃ v', h.run callback w' = .ok (x, v') ∧ v.Alike env scope v' := by
  induction hs generalizing w w' with
  | @answer x' =>
    subst hh
    cases hx
    refine ⟨rfl, w', ?_, hw⟩
    rw [Handling.run, hw.host]
  | @render text resume hr ih =>
    subst hh
    rw [Handling.run_render] at hx
    cases hu : callback text w with
    | error f =>
      rw [hu] at hx
      cases hx
    | ok r =>
      obtain ⟨out, u⟩ := r
      rw [hu] at hx
      change (resume out u.host).run callback u = _ at hx
      obtain ⟨hhu, u', hu', huu⟩ := hc text hw hu
      rw [hhu] at hx
      obtain ⟨hv, v', hv', hvv⟩ := ih out huu hhu hx
      refine ⟨hv.trans hhu, v', ?_, hvv⟩
      have hself : { w' with host := w.host } = w' := by rw [hw.host]
      have hhost : u'.host = w.host := by rw [← huu.host, hhu]
      simp only [Handling.run_render, hself, hu', hhost]
      exact hv'

theorem lambda (hq : env.host.Quiet) {callback : String → Act σ κ String}
    (hc : ∀ text, Agrees env scope (callback text)) (id : Nat) (body : String) :
    Agrees env scope fun w => (env.host.lambda id body w.host).run callback w := by
  intro w w' hw x v hx
  have hs := hq.lambda id body w.host
  show _ ∧ ∃ v', (env.host.lambda id body w'.host).run callback w' = _ ∧ _
  rw [← hw.host]
  exact run hc hs hw rfl hx

theorem result_ok {act : Act σ κ α} (h : Agrees env scope act) {w w' : World σ κ}
    (hw : w.Alike env scope w') {x : α} (hx : act.result w = .ok x) : act.result w' = .ok x := by
  cases hr : act w with
  | error f =>
    rw [result, hr] at hx
    cases hx
  | ok r =>
    rw [result, hr] at hx
    cases hx
    obtain ⟨-, v', hv', -⟩ := h hw hr
    rw [result, hv']
    rfl

/-- Alike worlds cannot be told apart by results: there is one way to fail. -/
theorem result_eq {act : Act σ κ α} (h : Agrees env scope act) {w w' : World σ κ}
    (hw : w.Alike env scope w') : act.result w = act.result w' := by
  cases hx : act.result w with
  | ok x => exact (h.result_ok hw hx).symm
  | error f =>
    cases hx' : act.result w' with
    | ok x =>
      rw [h.result_ok hw.symm hx'] at hx
      cases hx
    | error f' =>
      cases f
      cases f'
      rfl

end Agrees

end Act

structure Detours.Agree (env : Env σ) (go : Detours σ κ) : Prop where
  insert : ∀ name scope, Act.Agrees env scope (go.insert name scope)
  callback : ∀ text scope, Act.Agrees env scope (go.callback text scope)

namespace Setting

variable {st : Setting σ κ}

theorem forEach_agrees {scope : Scope} {act : Value → Act σ κ String}
    (h : ∀ v, Act.Agrees st.env scope (act v)) (vs : List Value) :
    Act.Agrees st.env scope (forEach act vs) := by
  induction vs with
  | nil => exact .pure _
  | cons v vs ih => exact .bind (h v) fun _ => .bind ih fun _ => .pure _

mutual

theorem renderNode_agrees (hq : st.env.host.Quiet) {go : Detours σ κ}
    (hgo : go.Agree st.env) (source : String) (scope : Scope) (n : Node) :
    Act.Agrees st.env scope (st.renderNode go source scope n) := by
  cases n with
  | text t span => exact .pure _
  | comment t span => exact .pure _
  | variableTag name escaped span => exact .bind (.lookup hq name) fun _ => .pure _
  | partialTag name span => exact hgo.insert name scope
  | sectionTag name inverted span body cs =>
    cases inverted with
    | true =>
      refine .bind (.lookup hq name) fun v => ?_
      split
      · exact renderNodes_agrees hq hgo source scope cs
      · exact .pure _
    | false =>
      refine .bind (.lookup hq name) fun v => ?_
      have hframe : ∀ v : Value, Act.Agrees st.env scope
          (if v.truthy then Act.inFrame (st.renderNodes go source (scope.push v) cs)
            else pure "") := by
        intro v
        split
        · exact .inFrame (renderNodes_agrees hq hgo source _ cs)
        · exact .pure _
      cases v with
      | lambda id =>
        have hl := Act.Agrees.lambda hq (fun text => hgo.callback text scope) id
          (String.ofList (body.slice source.toList))
        exact hl.bind fun _ => .pure _
      | array items =>
        exact forEach_agrees (fun v => .inFrame (renderNodes_agrees hq hgo source _ cs)) items
      | _ => exact hframe _

theorem renderNodes_agrees (hq : st.env.host.Quiet) {go : Detours σ κ}
    (hgo : go.Agree st.env) (source : String) (scope : Scope) (ns : List Node) :
    Act.Agrees st.env scope (st.renderNodes go source scope ns) := by
  cases ns with
  | nil => exact .pure _
  | cons n ns =>
    exact .bind (renderNode_agrees hq hgo source scope n) fun _ =>
      .bind (renderNodes_agrees hq hgo source scope ns) fun _ => .pure _

end

def renderSource (st : Setting σ κ) (go : Detours σ κ) (source : String) (scope : Scope) :
    Act σ κ String := do
  let t ← Act.parse st.library st.delimiters source
  st.renderTemplate go t scope

theorem renderSource_agrees (hq : st.env.host.Quiet) {go : Detours σ κ}
    (hgo : go.Agree st.env) (source : String) (scope : Scope) :
    Act.Agrees st.env scope (st.renderSource go source scope) :=
  .bind (.parse _ _ _) fun t => renderNodes_agrees hq hgo t.source scope t.nodes

theorem detours_insert_zero (st : Setting σ κ) (lambdas : Nat) (name : String) (scope : Scope) :
    (st.detours lambdas 0).insert name scope = (do Act.skip name; pure "") := by
  rw [detours]

theorem detours_insert_succ (st : Setting σ κ) (lambdas p : Nat) (name : String) (scope : Scope) :
    (st.detours lambdas (p + 1)).insert name scope =
      Act.source st.partials name >>= fun
        | none => pure ""
        | some source => st.renderSource (st.detours lambdas p) source scope := by
  rw [detours]
  rfl

theorem detours_callback_zero (st : Setting σ κ) (partials : Nat) (text : String) (scope : Scope) :
    (st.detours 0 partials).callback text scope = Act.fault .lambdasTooDeep := by
  rw [detours]

theorem detours_callback_succ (st : Setting σ κ) (l partials : Nat) (text : String)
    (scope : Scope) :
    (st.detours (l + 1) partials).callback text scope =
      st.renderSource (st.detours l partials) text scope := by
  rw [detours]
  rfl

theorem detours_agree (hq : st.Quiet) (lambdas partials : Nat) :
    (st.detours lambdas partials).Agree st.env := by
  constructor
  case insert =>
    intro name scope
    cases partials with
    | zero =>
      rw [detours_insert_zero]
      exact .bind (.skip name) fun _ => .pure _
    | succ p =>
      rw [detours_insert_succ]
      refine .bind (.source hq.partials name) fun found => ?_
      cases found with
      | none => exact .pure _
      | some source => exact renderSource_agrees hq.host (detours_agree hq lambdas p) source scope
  case callback =>
    intro text scope
    cases lambdas with
    | zero =>
      rw [detours_callback_zero]
      exact .fault _
    | succ l =>
      rw [detours_callback_succ]
      exact renderSource_agrees hq.host (detours_agree hq l partials) text scope
termination_by lambdas + partials

end Setting

end Stencil
