import Stencil.Proofs.Render.Room
import Stencil.Proofs.Template.Sections

/-!
# Lambdas that only render

The body of a section parsed on its own differs from the children of the section
in its spans alone, and nodes do not show their spans: the bodies inside them
stand for the same texts in both sources. So a lambda that answers its body,
rendered, leaves no trace of itself.
-/

set_option autoImplicit false

namespace Stencil

variable {σ κ : Type}

def Span.raw (s : Span) (source : String) : String := String.ofList (s.slice source.toList)

namespace Node

def SameBodies (k : Nat) (source source' : List Char) (ns : List Node) : Prop :=
  ∀ ⦃name inverted span body cs⦄, (sectionTag name inverted span body cs).Inside ns →
    (body.moved k).slice source' = body.slice source

namespace SameBodies

variable {k : Nat} {source source' : List Char}

theorem head {n : Node} {ns : List Node} (h : SameBodies k source source' (n :: ns)) :
    SameBodies k source source' [n] := by
  intro name inverted span body cs hx
  exact h (Inside.append.2 (.inl hx) : (sectionTag name inverted span body cs).Inside ([n] ++ ns))

theorem tail {n : Node} {ns : List Node} (h : SameBodies k source source' (n :: ns)) :
    SameBodies k source source' ns := by
  intro name inverted span body cs hx
  exact h (Inside.append.2 (.inr hx) : (sectionTag name inverted span body cs).Inside ([n] ++ ns))

theorem children {name : String} {inverted : Bool} {span body : Span} {cs : List Node}
    (h : SameBodies k source source' [sectionTag name inverted span body cs]) :
    SameBodies k source source' cs := by
  intro name' inverted' span' body' cs' hx
  exact h (.deeper (List.mem_singleton.2 rfl) hx)

end SameBodies

theorem sameBodies_parse (d : Delimiters) {a b c : List Char}
    (h : Text.byteLength (a ++ (b ++ c)) < 2 ^ 32) :
    SameBodies (Text.byteLength a) b (a ++ (b ++ c))
      (Template.parse d (String.ofList b)).nodes := by
  intro name inverted span body cs hx
  rw [Text.byteLength_append, Text.byteLength_append] at h
  have hb : Text.byteLength (String.ofList b).toList < 2 ^ 32 := by
    rw [String.toList_ofList]
    omega
  obtain ⟨p, m, q, hsrc, hbody, -⟩ := Template.section_alone hb hx
  rw [String.toList_ofList] at hsrc
  rw [hsrc, Text.byteLength_append, Text.byteLength_append] at h
  have hmoved : body.moved (Text.byteLength a) =
      .ofBounds (Text.byteLength (a ++ p)) (Text.byteLength (a ++ p) + Text.byteLength m) := by
    rw [hbody, Span.moved_ofBounds, Text.byteLength_append]
    congr 1 <;> omega
  have hlong : a ++ (b ++ c) = (a ++ p) ++ (m ++ (q ++ c)) := by simp [hsrc]
  have hfit : Text.byteLength (a ++ p) + Text.byteLength m < 2 ^ 32 := by
    rw [Text.byteLength_append]
    omega
  rw [hmoved, hlong, Span.slice_ofBounds _ _ _ hfit, hbody, hsrc,
    Span.slice_ofBounds _ _ _ (by omega)]

end Node

namespace Setting

variable (st : Setting σ κ) (go : Detours σ κ)

mutual

theorem renderNode_moved {k : Nat} {source source' : String} (scope : Scope) (n : Node)
    (h : Node.SameBodies k source.toList source'.toList [n]) :
    st.renderNode go source' scope (n.moved k) = st.renderNode go source scope n := by
  cases n with
  | text t span => rfl
  | comment t span => rfl
  | variableTag name escaped span => rfl
  | partialTag name span => rfl
  | sectionTag name inverted span body cs =>
    have hcs := fun scope => renderNodes_moved scope cs h.children
    have hbody := h (.here (List.mem_singleton.2 rfl))
    cases inverted with
    | true => simp only [Node.moved, renderNode, hcs]
    | false => simp only [Node.moved, renderNode, hcs, hbody]

theorem renderNodes_moved {k : Nat} {source source' : String} (scope : Scope) (ns : List Node)
    (h : Node.SameBodies k source.toList source'.toList ns) :
    st.renderNodes go source' scope (Node.movedAll k ns) = st.renderNodes go source scope ns := by
  cases ns with
  | nil => rfl
  | cons n ns =>
    rw [Node.movedAll, renderNodes, renderNodes, renderNode_moved scope n h.head,
      renderNodes_moved scope ns h.tail]

end

/-- The children of a section are rendered as its raw body is, parsed with the
delimiters in force behind its opening tag. -/
theorem renderNodes_children {d : Delimiters} {source : String}
    (h : Text.byteLength source.toList < 2 ^ 32) {name : String} {inverted : Bool}
    {span body : Span} {cs : List Node}
    (hx : (Node.sectionTag name inverted span body cs).Inside (Template.parse d source).nodes)
    (scope : Scope) :
    st.renderNodes go source scope cs =
      st.renderNodes go (body.raw source) scope
        (Template.parse (Template.delimitersAt d source span) (body.raw source)).nodes := by
  obtain ⟨a, b, c, hsrc, hbody, hcs⟩ := Template.section_alone h hx
  rw [hsrc] at h
  have hfit : Text.byteLength a + Text.byteLength b < 2 ^ 32 := by
    rw [Text.byteLength_append, Text.byteLength_append] at h
    omega
  have hraw : body.raw source = String.ofList b := by
    rw [Span.raw, hbody, hsrc, Span.slice_ofBounds _ _ _ hfit]
  have hsame := Node.sameBodies_parse (Template.delimitersAt d source span) h
  rw [hraw, hcs]
  apply renderNodes_moved
  rw [hsrc, String.toList_ofList]
  exact hsame

/-- A section on a lambda that answers what its body renders to. -/
theorem renderNode_lambda {source : String} {scope : Scope} {name : String} {span body : Span}
    {cs : List Node} {w w₁ : World σ κ} {id : Nat}
    (hl : Act.lookup st.env scope name w = .ok (.lambda id, w₁))
    (hr : st.env.host.lambda id (body.raw source) w₁.host =
      .render (body.raw source) w₁.host fun out s => .answer (.string out) s) :
    (st.renderNode go source scope (.sectionTag name false span body cs)).result w =
      (go.callback (body.raw source) scope).result w₁ := by
  have hrun : (st.renderNode go source scope (.sectionTag name false span body cs)) w =
      (do
        let v ← (st.env.host.lambda id (body.raw source) w₁.host).run
          fun text => go.callback text scope
        pure v.display : Act σ κ String) w₁ := by
    rw [renderNode]
    show (Act.lookup st.env scope name w >>= fun r => _) = _
    rw [hl]
    rfl
  rw [Act.result, hrun, hr]
  show ((Handling.run _ _ w₁ >>= fun r => _) : Except _ _).map _ = _
  rw [Handling.run_render, Act.result]
  cases go.callback (body.raw source) scope w₁ with
  | ok r => rfl
  | error f => rfl

theorem renderSource_result (source : String) (scope : Scope) (w : World σ κ) :
    ∃ k, (st.renderSource go source scope).result w =
      (st.renderNodes go source scope (Template.parse st.delimiters source).nodes).result
        { w with library := k } := by
  refine ⟨(st.library.parse st.delimiters source w.library).2, ?_⟩
  show (st.renderTemplate go (st.library.parse st.delimiters source w.library).1 scope).result _ = _
  rw [st.library.faithful]
  rfl

/-- What a library holds cannot be seen in what is rendered. -/
theorem renderNodes_library (lambdas partials : Nat) (source : String) (scope : Scope)
    (ns : List Node) (w : World σ κ) (k : κ) :
    (st.renderNodes (st.detours lambdas partials) source scope ns).result
        { w with library := k } =
      (st.renderNodes (st.detours lambdas partials) source scope ns).result w := by
  let l : Likeness κ κ := .ofLibraries fun _ _ => True
  have hst : st.Alike l (fun _ => True) st :=
    ⟨rfl, rfl, rfl, rfl, fun _ _ _ _ _ => trivial,
      fun key _ _ _ hs => Likeness.ofLibraries_lookup (fun _ => rfl) key hs⟩
  have hgo := detours_alike (Likeness.ofLibraries_sound _) hst (st.reads_all True) lambdas partials
  have halike := renderNodes_alike (Likeness.ofLibraries_sound _) hst (st.reads_all True) hgo
    source (Likeness.ofLibraries_scopes.2 (rfl : scope = scope)) ns fun _ _ => trivial
  have hstart : l.Worlds { w with library := k } w :=
    ⟨rfl, trivial, Likeness.ofLibraries_entries.2 rfl, rfl⟩
  have hrun := halike hstart
  rw [Act.result, Act.result]
  revert hrun
  generalize st.renderNodes _ source scope ns { w with library := k } = x
  generalize st.renderNodes _ source scope ns w = y
  intro hrun
  cases hrun with
  | ok hr => exact congrArg Except.ok hr.1
  | error f _ => rfl

/-- A lambda that only renders its body is transparent: with room for one more text
rendered for a lambda the section appends what its children render to in its frame, and
what it appends with the same room the children render to as well, whatever getters,
accessors, formatters and partials do. If nothing that is called has effects, they render
to the same before the section's name was looked up. The tree may be that of any source,
also of a partial or of a text rendered for a lambda, `w` what any rendering left, and the
section ended by its own tag, by another or by none. -/
theorem transparent_section {d : Delimiters} {source : String}
    (h : Text.byteLength source.toList < 2 ^ 32) {name : String} {span body : Span}
    {cs : List Node}
    (hx : (Node.sectionTag name false span body cs).Inside (Template.parse d source).nodes)
    (hd : Template.delimitersAt d source span = st.delimiters) {scope : Scope}
    {w w₁ : World σ κ} {id : Nat}
    (hl : Act.lookup st.env scope name w = .ok (.lambda id, w₁))
    (hr : st.env.host.lambda id (body.raw source) w₁.host =
      .render (body.raw source) w₁.host fun out s => .answer (.string out) s) :
    (∀ lambdas partials,
      (st.renderNode (st.detours (lambdas + 1) partials) source scope
        (.sectionTag name false span body cs)).result w =
      (st.renderNodes (st.detours lambdas partials) source scope cs).result w₁) ∧
    (∀ lambdas partials out,
      (st.renderNode (st.detours lambdas partials) source scope
        (.sectionTag name false span body cs)).result w = .ok out →
      (st.renderNodes (st.detours lambdas partials) source scope cs).result w₁ = .ok out) ∧
    (st.Quiet → ∀ lambdas partials,
      (st.renderNodes (st.detours lambdas partials) source scope cs).result w₁ =
      (st.renderNodes (st.detours lambdas partials) source scope cs).result w) := by
  have hroom : ∀ lambdas partials,
      (st.renderNode (st.detours (lambdas + 1) partials) source scope
        (.sectionTag name false span body cs)).result w =
      (st.renderNodes (st.detours lambdas partials) source scope cs).result w₁ := by
    intro lambdas partials
    rw [renderNode_lambda st _ hl hr, detours_callback_succ]
    obtain ⟨k, hk⟩ :=
      renderSource_result st (st.detours lambdas partials) (body.raw source) scope w₁
    rw [hk, ← hd, ← renderNodes_children st _ h hx, renderNodes_library]
  refine ⟨hroom, fun lambdas partials out hout => ?_, fun hq lambdas partials => ?_⟩
  · cases lambdas with
    | zero =>
      rw [renderNode_lambda st _ hl hr, detours_callback_zero] at hout
      cases hout
    | succ l =>
      rw [hroom] at hout
      have hgo := detours_extend st st.lambdaLimit (Nat.le_succ l) partials
      exact (renderNodes_extends st st.lambdaLimit hgo source scope cs).result_ok hout
  · obtain ⟨u, hu, halike⟩ := Act.lookup_ok hq.host scope name w
    obtain rfl : w₁ = u := (Prod.mk.inj (Except.ok.inj (hl.symm.trans hu))).2
    have hgo := detours_agree hq lambdas partials
    exact (renderNodes_agrees hq.host hgo source scope cs).result_eq halike.symm

/-- A section that runs to the end of its source, around one that does not. -/
theorem transparent_section_unclosed :
    let st : Setting Unit Unit := ⟨⟨.echo, .empty⟩, .fresh, .table fun _ => none, .standard, 1000⟩
    let source := "a{{#b}}{{^c}}{{x}}{{/c}}"
    let scope : Scope := ⟨.object [("b", .lambda 0), ("x", .string "&")], []⟩
    let cs : List Node := [.sectionTag "c" true ⟨7, 6⟩ ⟨13, 5⟩ [.variableTag "x" true ⟨13, 5⟩]]
    let w : World Unit Unit := { host := (), library := () }
    ∃ w₁, Act.lookup st.env scope "b" w = .ok (.lambda 0, w₁) ∧
      (∀ lambdas partials,
        (st.renderNode (st.detours (lambdas + 1) partials) source scope
          (.sectionTag "b" false ⟨1, 6⟩ ⟨7, 17⟩ cs)).result w =
        (st.renderNodes (st.detours lambdas partials) source scope cs).result w₁) ∧
      (∀ lambdas partials out,
        (st.renderNode (st.detours lambdas partials) source scope
          (.sectionTag "b" false ⟨1, 6⟩ ⟨7, 17⟩ cs)).result w = .ok out →
        (st.renderNodes (st.detours lambdas partials) source scope cs).result w₁ = .ok out) ∧
      ∀ lambdas partials,
        (st.renderNodes (st.detours lambdas partials) source scope cs).result w₁ =
        (st.renderNodes (st.detours lambdas partials) source scope cs).result w := by
  intro st source scope cs w
  have hnodes : (Template.parse .standard source).nodes =
      [.text "a" ⟨0, 1⟩, .sectionTag "b" false ⟨1, 6⟩ ⟨7, 17⟩ cs] := by decide +kernel
  have hvalue : scope.valueOf st.env () [] "b".toList = .lambda 0 := by
    have hfound : scope.resolveAfresh st.env "b".toList = pure (some (.lambda 0)) :=
      Scope.resolveAfresh_own (by decide) (by decide) rfl nofun
    rw [Scope.valueOf, if_neg (by decide)]
    show (((scope.resolveAfresh st.env "b".toList) ()).1).getD .null = _
    rw [hfound]
    rfl
  have hq : st.Quiet := ⟨Host.echo_quiet, Partials.table_still _⟩
  obtain ⟨w₁, hl, -⟩ := Act.lookup_ok hq.host scope "b" w
  rw [hvalue] at hl
  have hinside : (Node.sectionTag "b" false ⟨1, 6⟩ ⟨7, 17⟩ cs).Inside
      (Template.parse .standard source).nodes := by
    rw [hnodes]
    exact .here (by simp)
  obtain ⟨hroom, hout, hquiet⟩ := transparent_section st (by decide +kernel) hinside
    (by decide +kernel) hl rfl
  exact ⟨w₁, hl, hroom, hout, hquiet hq⟩

end Setting

end Stencil
