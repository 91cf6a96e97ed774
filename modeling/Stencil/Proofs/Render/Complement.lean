import Stencil.Proofs.Lookup.Wrapped
import Stencil.Proofs.Render.Remembered

/-!
# Sections and their inverses

A section with an inverted section of the same name behind it is one choice. The name is
resolved once, for by the second section its frame remembers it, through whatever a
lambda had rendered in the frame; and a value is blank just if a section on it is left
out.
-/

set_option autoImplicit false

namespace Stencil

variable {σ κ α β : Type}

/-- After computations that keep the memo a remembered key need not be looked up. -/
theorem Act.bind_recalled {env : Env σ} {scope : Scope} {key : String} {r : Option Value}
    {act : Act σ κ α} (h : act.Keeps fun memo => memo.lookup (Query.lookup key).name = some r)
    {w : World σ κ} (hw : w.memo.lookup (Query.lookup key).name = some r) {v : Value}
    (hv : Key.valued env key r = pure v) (f : α → Value → Act σ κ β) :
    (act >>= fun a => Act.lookup env scope key >>= f a) w = (act >>= fun a => f a v) w := by
  cases ha : act w with
  | error e =>
    show (act w >>= fun x => (Act.lookup env scope key >>= f x.1) x.2) =
      act w >>= fun x => f x.1 v x.2
    rw [ha]
    rfl
  | ok x =>
    obtain ⟨a, u⟩ := x
    have hl : Act.lookup env scope key u = .ok (v, u) := by
      rw [lookup_hit env scope (h ha hw), hv]
      rfl
    rw [bind_of_ok ha, bind_of_ok ha, bind_of_ok hl]

namespace Setting

variable (st : Setting σ κ) (go : Detours σ κ) (source : String) (scope : Scope)

/-- The children `cs` once for each of some values, in their order, each time in a frame of
its own on that value. -/
def renderedOn (cs : List Node) : List Value → Act σ κ String
  | [] => pure ""
  | v :: vs => do
    let out ← Act.inFrame (st.renderNodes go source (scope.push v) cs)
    let rest ← renderedOn cs vs
    pure (out ++ rest)

/-- What is rendered of a section on a value and of the inverted section behind it: the
children `cs` of the one or what the lambda answers to its body, or the children `es` of
the other. -/
def chosen (body : Span) (cs es : List Node) : Value → Act σ κ String
  | .lambda id => do
    let s := (← get).host
    let raw := String.ofList (body.slice source.toList)
    let v ← (st.env.host.lambda id raw s).run fun text => go.callback text scope
    pure v.display
  | .array [] => st.renderNodes go source scope es
  | .array (v :: vs) => st.renderedOn go source scope cs (v :: vs)
  | v =>
    if v.truthy then Act.inFrame (st.renderNodes go source (scope.push v) cs)
    else st.renderNodes go source scope es

theorem renderedOn_eq (cs : List Node) (vs : List Value) :
    st.renderedOn go source scope cs vs =
      forEach (fun v => Act.inFrame (st.renderNodes go source (scope.push v) cs)) vs := by
  induction vs with
  | nil => rfl
  | cons v vs ih => rw [renderedOn, forEach, ih]

theorem chosen_blank (body : Span) (cs es : List Node) {v : Value} (h : v.blank = true) :
    st.chosen go source scope body cs es v = st.renderNodes go source scope es ∧
      st.sectionText go source scope body cs v = pure "" := by
  cases v with
  | lambda id => cases h
  | array items =>
    cases items with
    | nil => exact ⟨rfl, rfl⟩
    | cons v vs => cases h
  | _ =>
    have ht := by simpa [Value.blank] using h
    simp [chosen, sectionText, ht]

theorem chosen_filled (body : Span) (cs es : List Node) {v : Value} (h : v.blank = false) :
    st.chosen go source scope body cs es v = st.sectionText go source scope body cs v := by
  cases v with
  | lambda id => rfl
  | array items =>
    cases items with
    | nil => cases h
    | cons v vs => exact renderedOn_eq st go source scope cs (v :: vs)
  | _ =>
    have ht := by simpa [Value.blank] using h
    simp [chosen, sectionText, ht]

/-- A pair of sections looks its key up, takes the one section and looks the key up again. -/
theorem renderNodes_pair (name : String) (span body span' body' : Span) (cs es : List Node) :
    st.renderNodes go source scope
        [.sectionTag name false span body cs, .sectionTag name true span' body' es] =
      Act.lookup st.env scope name >>= fun v =>
        st.sectionText go source scope body cs v >>= fun out =>
          Act.lookup st.env scope name >>= fun v' =>
            (if v'.blank then st.renderNodes go source scope es else pure "") >>= fun rest =>
              pure (out ++ rest) := by
  rw [renderNodes, renderNodes, renderNodes, renderNode_section, renderNode]
  simp only [bind_assoc, pure_bind, String.append_empty]

/-- A section and an inverted section behind it on the same key, in any frame, whatever it
remembers and whatever getters, accessors, lambdas and other formatters do to the host, if
the formatters of the key are functions: the key is looked up once, and by its value either
the children of the one are rendered, once for a value that is true and once for each
element of an array that has any, or the lambda is called once, and none of the children
of the other; or they are rendered once, in the frame as it is, and none of the first. -/
theorem section_complement {name : String} (hf : Key.Functional st.env name) (lambdas partials : Nat) (span body span' body' : Span) (cs es : List Node) :
    st.renderNodes (st.detours lambdas partials) source scope
        [.sectionTag name false span body cs, .sectionTag name true span' body' es] =
      Act.lookup st.env scope name >>=
        st.chosen (st.detours lambdas partials) source scope body cs es := by
  rw [renderNodes_pair]
  generalize hgo : st.detours lambdas partials = go
  funext w
  obtain ⟨r, s, u, hl, hm⟩ := Act.lookup_answered st.env scope name w
  obtain ⟨v, hvalued⟩ := hf.valued r
  have hkeep : (st.sectionText go source scope body cs v).Keeps fun memo =>
      memo.lookup (Query.lookup name).name = some r := by
    subst hgo
    exact sectionText_keeps (detours_keep (fun key => .lookup st.env scope key _ r) _ _) ..
  have hl : Act.lookup st.env scope name w = .ok (v, u) := by
    rw [hl, hvalued]
    rfl
  rw [Act.bind_of_ok hl, Act.bind_of_ok hl, Act.bind_recalled hkeep hm hvalued]
  cases hv : v.blank with
  | true =>
    obtain ⟨hchosen, hnone⟩ := chosen_blank st go source scope body cs es hv
    simp only [hchosen, hnone, pure_bind, if_true, String.empty_append, bind_pure]
  | false =>
    simp only [chosen_filled _ _ _ _ _ _ _ hv, pure_bind, Bool.false_eq_true, if_false,
      String.append_empty, bind_pure]

/-- The getter is true the first time only. -/
theorem section_complement_piped :
    let host : Host Nat :=
      { getter := fun _ _ n => (.bool (n == 0), n + 1)
        lambda := fun _ _ n => .answer .null n
        get := fun _ _ n => (.ok none, n)
        registry := fun _ => .empty
        format := fun _ _ _ n => (.null, n + 1) }
    let st : Setting Nat Unit :=
      ⟨⟨host, Standard.formatters.register "tick" (.handle 0)⟩, .fresh,
        .table fun _ => none, .standard, 1000⟩
    let source := "{{#b|default}}A{{/b|default}}{{^b|default}}B{{/b|default}}"
    let scope : Scope := ⟨.object [("b", .getter 0)], []⟩
    let cs : List Node := [.text "A" ⟨14, 1⟩]
    let es : List Node := [.text "B" ⟨43, 1⟩]
    (Template.parse .standard source).nodes =
      [.sectionTag "b|default" false ⟨0, 14⟩ ⟨14, 1⟩ cs,
        .sectionTag "b|default" true ⟨29, 14⟩ ⟨43, 1⟩ es] ∧
    st.renderNodes (st.detours 1000 64) source scope (Template.parse .standard source).nodes =
      Act.lookup st.env scope "b|default" >>=
        st.chosen (st.detours 1000 64) source scope ⟨14, 1⟩ cs es := by
  intro host st source scope cs es
  have hnodes : (Template.parse .standard source).nodes =
      [.sectionTag "b|default" false ⟨0, 14⟩ ⟨14, 1⟩ cs,
        .sectionTag "b|default" true ⟨29, 14⟩ ⟨43, 1⟩ es] := by decide +kernel
  have hsteps : (Key.parse "b|default".toList).steps.map (·.name) = ["default"] := by
    decide +kernel
  refine ⟨hnodes, ?_⟩
  rw [hnodes]
  refine section_complement st source scope (fun step hstep => ?_) 1000 64 ..
  have hname : step.name = "default" :=
    List.mem_singleton.1 (hsteps ▸ List.mem_map_of_mem (f := (·.name)) hstep)
  rw [hname]
  exact ⟨Standard.orElse, fun v args n => rfl⟩

end Setting

end Stencil
