import Stencil.Proofs.Render.Account
import Stencil.Proofs.Template.Nesting

/-!
# Partials as trees put in their place

A tree with its partials expanded, to the depth to which they nest: for a partial tag the
expanded tree of its source stands, parsed on its own, and nothing for a tag that is too
deep or has no source. Rendering a tree that meets no lambda is rendering this one.
-/

set_option autoImplicit false

namespace Stencil

variable {σ κ : Type}

namespace Node

mutual

def inlined (insert : String → List Node) : Node → List Node
  | partialTag name _ => insert name
  | sectionTag name inverted span body children =>
    [sectionTag name inverted span body (inlinedAll insert children)]
  | text t span => [text t span]
  | variableTag name escaped span => [variableTag name escaped span]
  | comment t span => [comment t span]

def inlinedAll (insert : String → List Node) : List Node → List Node
  | [] => []
  | n :: ns => inlined insert n ++ inlinedAll insert ns

end

def PartialFree (ns : List Node) : Prop := ∀ name span, ¬ (partialTag name span).Inside ns

theorem inlinedAll_append (insert : String → List Node) (ns ms : List Node) :
    inlinedAll insert (ns ++ ms) = inlinedAll insert ns ++ inlinedAll insert ms := by
  induction ns with
  | nil => rfl
  | cons n ns ih => rw [List.cons_append, inlinedAll, inlinedAll, ih, List.append_assoc]

mutual

theorem inlined_free {insert : String → List Node} (h : ∀ name, PartialFree (insert name))
    (n : Node) : PartialFree (inlined insert n) := by
  cases n with
  | partialTag name span => exact h name
  | sectionTag name inverted span body cs =>
    intro p s hp
    rw [inlined, Inside.cons] at hp
    rcases hp with hp | hp | hp
    · cases hp
    · exact inlinedAll_free h cs p s hp
    · exact Inside.nil hp
  | _ =>
    intro p s hp
    rw [inlined, Inside.cons] at hp
    rcases hp with hp | hp | hp
    · cases hp
    · exact Inside.nil hp
    · exact Inside.nil hp

theorem inlinedAll_free {insert : String → List Node} (h : ∀ name, PartialFree (insert name))
    (ns : List Node) : PartialFree (inlinedAll insert ns) := by
  cases ns with
  | nil => exact fun _ _ => Inside.nil
  | cons n ns =>
    intro p s hp
    rcases Inside.append.1 hp with hp | hp
    · exact inlined_free h n p s hp
    · exact inlinedAll_free h ns p s hp

end

end Node

namespace Event

def visible : Event → Bool
  | expanded _ | skipped _ => false
  | text _ | value _ _ | lambda _ => true

def outward (es : List Event) : List Event := es.filter visible

theorem outward_append (es fs : List Event) : outward (es ++ fs) = outward es ++ outward fs :=
  List.filter_append ..

theorem written_outward (es : List Event) : written (outward es) = written es := by
  induction es with
  | nil => rfl
  | cons e es ih =>
    cases e with
    | expanded source => exact ih.trans String.empty_append.symm
    | skipped name => exact ih.trans String.empty_append.symm
    | _ => exact (written_cons _ _).trans ((congrArg _ ih).trans (written_cons _ _).symm)

theorem mute_outward {es : List Event} : Mute (outward es) ↔ Mute es := by
  simp [Mute, outward, visible]

end Event

/-- From worlds with the same host and the same memo, both accounts tell of the same
outward events and lead to such worlds. -/
structure Tale.Same (a b : Tale σ κ) (w w' : World σ κ) : Prop where
  events : Event.outward (a w).1 = Event.outward (b w').1
  host : (a w).2.host = (b w').2.host
  memo : (a w).2.memo = (b w').2.memo

def Tale.Matches (a b : Tale σ κ) : Prop :=
  ∀ w w', w.host = w'.host → w.memo = w'.memo → Tale.Same a b w w'

namespace Tale.Matches

variable {a a' b b' : Tale σ κ}

theorem tell (es : List Event) : (Tale.tell es : Tale σ κ).Matches (.tell es) :=
  fun _ _ hh hm => ⟨rfl, hh, hm⟩

theorem andThen (ha : a.Matches a') (hb : b.Matches b') : (a.andThen b).Matches (a'.andThen b') := by
  intro w w' hh hm
  have h := ha w w' hh hm
  have k := hb _ _ h.host h.memo
  refine ⟨?_, k.host, k.memo⟩
  show Event.outward (_ ++ _) = Event.outward (_ ++ _)
  rw [Event.outward_append, Event.outward_append, h.events, k.events]

theorem look {env : Env σ} {scope : Scope} {key : String} {f g : Value → Tale σ κ}
    (h : ∀ v, (f v).Matches (g v)) :
    (Tale.look env scope key f).Matches (.look env scope key g) := by
  intro w w' hh hm
  obtain ⟨s, k, memo, skipped⟩ := w
  obtain ⟨s', k', memo', skipped'⟩ := w'
  obtain rfl : s = s' := hh
  obtain rfl : memo = memo' := hm
  have hs := h (scope.lookup env key.toList memo s).1.1
    ⟨(scope.lookup env key.toList memo s).2, k, (scope.lookup env key.toList memo s).1.2, skipped⟩
    ⟨(scope.lookup env key.toList memo s).2, k', (scope.lookup env key.toList memo s).1.2, skipped'⟩
    rfl rfl
  exact ⟨hs.events, hs.host, hs.memo⟩

theorem inFrame (h : a.Matches b) : a.inFrame.Matches b.inFrame := by
  intro w w' hh hm
  have hs := h { w with memo := [] } { w' with memo := [] } hh rfl
  exact ⟨hs.events, hs.host, hm⟩

theorem each {f g : Value → Tale σ κ} (h : ∀ v, (f v).Matches (g v)) (vs : List Value) :
    (Tale.each f vs).Matches (.each g vs) := by
  induction vs with
  | nil => exact .tell []
  | cons v vs ih => exact .andThen (h v) ih

theorem alone (h : a.Matches b) : a.Matches (b.andThen (.tell [])) := by
  intro w w' hh hm
  have hs := h w w' hh hm
  refine ⟨?_, hs.host, hs.memo⟩
  show _ = Event.outward (_ ++ [])
  rw [List.append_nil, hs.events]

theorem skip (name : String) : (Tale.skip name : Tale σ κ).Matches (.tell []) :=
  fun _ _ hh hm => ⟨rfl, hh, hm⟩

theorem expand {lib : Library κ} {d : Delimiters} {source : String} {next : List Node → Tale σ κ}
    (h : (next (Template.parse d source).nodes).Matches b) :
    (Tale.expand lib d source next).Matches b := by
  intro w w' hh hm
  have ht := lib.faithful d source w.library
  have hs := h { w with library := (lib.parse d source w.library).2 } w' hh hm
  rw [← ht] at hs
  exact ⟨hs.events, hs.host, hs.memo⟩

end Tale.Matches

theorem Tale.ask_table (find : String → Option String) (name : String)
    (next : Option String → Tale σ κ) :
    Tale.ask (.table find) name next = next (find name) := rfl

namespace Setting

variable {st : Setting σ κ}

theorem tellNodes_append (insert : String → Scope → Tale σ κ) (scope : Scope)
    (ns ms : List Node) :
    st.tellNodes insert scope (ns ++ ms) =
      (st.tellNodes insert scope ns).andThen (st.tellNodes insert scope ms) := by
  induction ns with
  | nil => rfl
  | cons n ns ih =>
    rw [List.cons_append, tellNodes, tellNodes, ih]
    funext w
    simp only [Tale.andThen, List.append_assoc]

section Inlined

variable {insert insert' : String → Scope → Tale σ κ} {trees : String → List Node}

mutual

theorem tellNode_inlined
    (h : ∀ name scope, (insert name scope).Matches (st.tellNodes insert' scope (trees name)))
    (scope : Scope) (n : Node) :
    (st.tellNode insert scope n).Matches (st.tellNodes insert' scope (n.inlined trees)) := by
  cases n with
  | partialTag name span => exact h name scope
  | text t span => exact .alone (.tell _)
  | comment t span => exact .alone (.tell _)
  | variableTag name escaped span =>
    refine .alone ?_
    rw [tellNode, tellNode]
    exact .look fun v => .tell _
  | sectionTag name inverted span body cs =>
    have hcs := fun scope => tellNodes_inlined h scope cs
    rw [Node.inlined]
    refine .alone ?_
    cases inverted with
    | true =>
      rw [tellNode, tellNode]
      refine .look fun v => ?_
      split
      · exact hcs scope
      · exact .tell _
    | false =>
      rw [tellNode_section, tellNode_section]
      refine .look fun v => ?_
      cases v.branch with
      | lambda id => exact .tell _
      | array items => exact .each (fun v => .inFrame (hcs _)) items
      | frame hv =>
        rw [tellSection_frame _ _ _ _ hv, tellSection_frame _ _ _ _ hv]
        split
        · exact .inFrame (hcs _)
        · exact .tell _

theorem tellNodes_inlined
    (h : ∀ name scope, (insert name scope).Matches (st.tellNodes insert' scope (trees name)))
    (scope : Scope) (ns : List Node) :
    (st.tellNodes insert scope ns).Matches
      (st.tellNodes insert' scope (Node.inlinedAll trees ns)) := by
  cases ns with
  | nil => exact .tell _
  | cons n ns =>
    rw [Node.inlinedAll, tellNodes_append]
    exact .andThen (tellNode_inlined h scope n) (tellNodes_inlined h scope ns)

end

end Inlined

/-- The tree without partials, `budget` of them inside one another expanded. Each source
is parsed with the delimiters of the rendering, whatever stands around its tag. -/
def expand (st : Setting σ κ) (find : String → Option String) :
    (budget : Nat) → List Node → List Node
  | 0, ns => Node.inlinedAll (fun _ => []) ns
  | budget + 1, ns => Node.inlinedAll (fun name => match find name with
      | none => []
      | some source => st.expand find budget (Template.parse st.delimiters source).nodes) ns

variable {find : String → Option String}

theorem expand_free (budget : Nat) (ns : List Node) :
    Node.PartialFree (st.expand find budget ns) := by
  induction budget generalizing ns with
  | zero => exact Node.inlinedAll_free (fun _ _ _ => Node.Inside.nil) ns
  | succ b ih =>
    refine Node.inlinedAll_free (fun name => ?_) ns
    cases find name with
    | none => exact fun _ _ => Node.Inside.nil
    | some source => exact ih _

/-- What stands before and behind a partial tag has no part in what it expands to, nor
has that a part in how the rest expands. -/
theorem expand_partial (budget : Nat) (before behind : List Node) (name : String) (span : Span) :
    st.expand find (budget + 1) (before ++ .partialTag name span :: behind) =
      st.expand find (budget + 1) before ++ (match find name with
        | none => []
        | some source => st.expand find budget (Template.parse st.delimiters source).nodes) ++
      st.expand find (budget + 1) behind := by
  simp only [expand, Node.inlinedAll_append, Node.inlinedAll, Node.inlined, List.append_assoc]

/-- The account of a tree is that of the expanded one, but for the partials. -/
theorem tellNodes_expand (hp : st.partials = .table find) (insert : String → Scope → Tale σ κ)
    (budget : Nat) (scope : Scope) (ns : List Node) :
    (st.tellNodes (st.tellPartial budget) scope ns).Matches
      (st.tellNodes insert scope (st.expand find budget ns)) := by
  induction budget generalizing scope ns with
  | zero => exact tellNodes_inlined (fun name _ => .skip name) scope ns
  | succ b ih =>
    refine tellNodes_inlined (fun name scope => ?_) scope ns
    rw [tellPartial, hp, Tale.ask_table]
    cases find name with
    | none => exact .tell _
    | some source => exact .expand (ih scope _)

/-- Partials that have no effects are trees put in their place. If a rendering meets no
lambda, however its partials include one another, it comes to an end and gives the text of the expanded
tree, in which no partial is left, and leaves the host as that does. A partial expands to
the tree of its source alone: delimiters changed before its tag do not reach it, and
those that it changes do not reach what is behind its tag. -/
theorem render_expanded (hp : st.partials = .table find) {t : Template} {data : Value}
    {w : World σ κ} (hm : Event.Mute (st.account t data w).1) :
    (∃ out v v', st.render t data w = .ok (out, v) ∧
      st.render { t with nodes := st.expand find partialLimit t.nodes } data w = .ok (out, v') ∧
      v.host = v'.host) ∧
    Node.PartialFree (st.expand find partialLimit t.nodes) ∧
    ∀ budget before name span behind,
      st.expand find (budget + 1) (before ++ .partialTag name span :: behind) =
        st.expand find (budget + 1) before ++ (match find name with
          | none => []
          | some source => st.expand find budget (Template.parse st.delimiters source).nodes) ++
        st.expand find (budget + 1) behind := by
  let t' : Template := { t with nodes := st.expand find partialLimit t.nodes }
  have hs : Tale.Same (st.account t data) (st.account t' data) w w :=
    tellNodes_expand hp (st.tellPartial partialLimit) partialLimit ⟨data, []⟩ t.nodes w w rfl rfl
  have hm' : Event.Mute (st.account t' data w).1 := by
    rw [← Event.mute_outward, ← hs.events, Event.mute_outward]
    exact hm
  have hw : Event.written (st.account t data w).1 = Event.written (st.account t' data w).1 := by
    rw [← Event.written_outward, hs.events, Event.written_outward]
  have hrun := render_follows t data w hm
  have hrun' := render_follows t' data w hm'
  rw [← hw] at hrun'
  exact ⟨⟨_, _, _, hrun, hrun', hs.host⟩, expand_free partialLimit t.nodes,
    fun b before name span behind => expand_partial b before behind name span⟩

/-- A partial that inserts itself and changes the delimiters for this, in a template that
changes them too. -/
theorem render_expanded_recursive :
    let find (name : String) := if name = "loop" then some "{{n}}{{=[ ]=}}[>loop]" else none
    let st : Setting Unit Unit := ⟨⟨.plain, .empty⟩, .fresh, find, .standard, 1000⟩
    let t := Template.parse .standard "{{=<% %>=}}<%>loop%><%n%>{{n}}"
    let data : Value := .object [("n", .int 1)]
    let w : World Unit Unit := { host := (), library := () }
    Event.written (st.account t data w).1 = String.ofList (List.replicate 65 '1') ++ "{{n}}" ∧
      (∃ out v v', st.render t data w = .ok (out, v) ∧
        st.render { t with nodes := st.expand find partialLimit t.nodes } data w = .ok (out, v') ∧
        v.host = v'.host) ∧
      Node.PartialFree (st.expand find partialLimit t.nodes) := by
  intro find st t data w
  have hp : st.partials = .table find := rfl
  have hm : Event.Mute (st.account t data w).1 := by decide +kernel
  obtain ⟨hrender, hfree, -⟩ := render_expanded hp hm
  exact ⟨by decide +kernel, hrender, hfree⟩

end Setting

end Stencil
