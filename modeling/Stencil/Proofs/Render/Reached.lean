import Stencil.Proofs.Lookup.Data
import Stencil.Proofs.Render.Wrapped
import Mathlib.Logic.Relation

/-!
# Points of a rendering

A rendering goes past the nodes of a tree one after the other, down into sections, and
off into partials and into texts that lambdas ask for. Rendering data it comes by frames
of data only, whose memos hold what names stand for in them.
-/

set_option autoImplicit false

namespace Stencil

variable {σ κ : Type}

/-- What a rendering has before it: the room for lambdas and partials, the tree at hand
with what is left of its nodes, and the world. -/
structure Point (σ κ : Type) where
  lambdas : Nat
  partials : Nat
  source : String
  scope : Scope
  nodes : List Node
  world : World σ κ

inductive Handling.Comes (callback : String → Act σ κ String) (text : String)
    (u : World σ κ) : Handling σ → World σ κ → Prop
  | here {s : σ} {resume : String → σ → Handling σ} {w : World σ κ} :
      u = { w with host := s } → Comes callback text u (.render text s resume) w
  | later {other out : String} {s : σ} {resume : String → σ → Handling σ} {w v : World σ κ} :
      callback other { w with host := s } = .ok (out, v) →
      Comes callback text u (resume out v.host) v → Comes callback text u (.render other s resume) w

namespace Setting

/-- From a point of a rendering to the next ones: past a node, and to the first of the
nodes it is rendered by. -/
inductive Moves (st : Setting σ κ) (x : Point σ κ) : Point σ κ → Prop
  | past {n : Node} {ns : List Node} {out : String} {u : World σ κ} :
      x.nodes = n :: ns →
      st.renderNode (st.detours x.lambdas x.partials) x.source x.scope n x.world = .ok (out, u) →
      Moves st x { x with nodes := ns, world := u }
  | inverted {name : String} {span body : Span} {cs ns : List Node} {v : Value} {u : World σ κ} :
      x.nodes = .sectionTag name true span body cs :: ns →
      Act.lookup st.env x.scope name x.world = .ok (v, u) → v.blank = true →
      Moves st x { x with nodes := cs, world := u }
  | frame {name : String} {span body : Span} {cs ns : List Node} {v : Value} {u : World σ κ} :
      x.nodes = .sectionTag name false span body cs :: ns →
      Act.lookup st.env x.scope name x.world = .ok (v, u) → v.Frame → v.truthy = true →
      Moves st x { x with scope := x.scope.push v, nodes := cs, world := { u with memo := [] } }
  | item {name : String} {span body : Span} {cs ns : List Node} {front back : List Value}
      {v : Value} {out : String} {u u' : World σ κ} :
      x.nodes = .sectionTag name false span body cs :: ns →
      Act.lookup st.env x.scope name x.world = .ok (.array (front ++ v :: back), u) →
      forEach (fun v => Act.inFrame (st.renderNodes (st.detours x.lambdas x.partials) x.source
        (x.scope.push v) cs)) front u = .ok (out, u') →
      Moves st x { x with scope := x.scope.push v, nodes := cs, world := { u' with memo := [] } }
  | inserted {name : String} {span : Span} {ns : List Node} {p : Nat} {source : String} {s : σ} :
      x.nodes = .partialTag name span :: ns → x.partials = p + 1 →
      st.partials name x.world.host = (some source, s) →
      Moves st x { x with
        partials := p, source := source, nodes := (Template.parse st.delimiters source).nodes,
        world := { x.world with
          host := s
          library := (st.library.parse st.delimiters source x.world.library).2 } }
  | called {name : String} {span body : Span} {cs ns : List Node} {id l : Nat} {text : String}
      {u u' : World σ κ} :
      x.nodes = .sectionTag name false span body cs :: ns → x.lambdas = l + 1 →
      Act.lookup st.env x.scope name x.world = .ok (.lambda id, u) →
      Handling.Comes
        (fun text => (st.detours x.lambdas x.partials).callback text x.scope) text u'
        (st.env.host.lambda id (String.ofList (body.slice x.source.toList)) u.host) u →
      Moves st x { x with
        lambdas := l, source := text, nodes := (Template.parse st.delimiters text).nodes,
        world := { u' with library := (st.library.parse st.delimiters text u'.library).2 } }

def Reaches (st : Setting σ κ) : Point σ κ → Point σ κ → Prop := Relation.ReflTransGen st.Moves

end Setting

namespace Point

def start (st : Setting σ κ) (t : Template) (data : Value) (s : σ) (lib : κ) : Point σ κ :=
  ⟨st.lambdaLimit, partialLimit, t.source, ⟨data, []⟩, t.nodes, { host := s, library := lib }⟩

structure Regular (env : Env σ) (x : Point σ κ) : Prop where
  plain : x.scope.Plain
  faithful : x.scope.Faithful env x.world.memo
  trimmed : ∀ key ∈ Node.keysAll x.nodes, Text.trim key.toList = key.toList

theorem start_regular (st : Setting σ κ) (d : Delimiters) (source : String) {data : Value}
    (h : data.Plain) (s : σ) (lib : κ) :
    (start st (Template.parse d source) data s lib).Regular st.env :=
  ⟨Scope.plain_root h, Scope.faithful_nil st.env _, fun _ hkey => Template.keys_trimmed d source hkey⟩

end Point

theorem Act.Keeps.faithful (env : Env σ) {scope : Scope} (hs : scope.Plain) (key : String) :
    (Act.lookup env scope key : Act σ κ Value).Keeps (scope.Faithful env) := by
  intro w u v h hw
  obtain ⟨r, memo, -, -, hl, hm⟩ := Act.lookup_plain env hs hw key
  rw [hl] at h
  cases h
  exact hm

namespace Point.Regular

variable {st : Setting σ κ} {x y : Point σ κ}

theorem tail (h : x.Regular st.env) {n : Node} {ns : List Node} (hn : x.nodes = n :: ns) :
    ∀ key ∈ Node.keysAll ns, Text.trim key.toList = key.toList := by
  intro key hkey
  refine h.trimmed key ?_
  rw [hn, Node.keysAll]
  exact List.mem_append_right _ hkey

theorem children (h : x.Regular st.env) {name : String} {inverted : Bool} {span body : Span}
    {cs ns : List Node} (hn : x.nodes = .sectionTag name inverted span body cs :: ns) :
    ∀ key ∈ Node.keysAll cs, Text.trim key.toList = key.toList := by
  intro key hkey
  refine h.trimmed key ?_
  rw [hn, Node.keysAll, Node.keys]
  exact List.mem_append_left _ (List.mem_cons_of_mem _ hkey)

theorem lookup (hf : st.env.Plain) (h : x.Regular st.env) {key : String} {v : Value}
    {u : World σ κ} (hl : Act.lookup st.env x.scope key x.world = .ok (v, u)) :
    v.Plain ∧ x.scope.Faithful st.env u.memo := by
  obtain ⟨r, memo, -, hplain, hl', hm⟩ := Act.lookup_plain st.env h.plain h.faithful key
  obtain ⟨w, hw, hv⟩ := hf.valued key hplain
  rw [hl', hw] at hl
  cases hl
  exact ⟨hv, hm⟩

theorem moves (hf : st.env.Plain) (h : x.Regular st.env) (hm : st.Moves x y) :
    y.Regular st.env := by
  cases hm with
  | past hn hu =>
    have hkeep : ∀ key, (Act.lookup st.env x.scope key : Act σ κ Value).Keeps
        (x.scope.Faithful st.env) := fun key => .faithful st.env h.plain key
    have hu' := Setting.renderNode_keeps hkeep (Setting.detours_keep hkeep _ _) _ _ hu h.faithful
    exact ⟨h.plain, hu', h.tail hn⟩
  | inverted hn hl _ => exact ⟨h.plain, (h.lookup hf hl).2, h.children hn⟩
  | frame hn hl _ _ =>
    exact ⟨h.plain.push (h.lookup hf hl).1, Scope.faithful_nil _ _, h.children hn⟩
  | @item _ _ _ _ _ front back v _ _ _ hn hl _ =>
    have hitems : ∀ w ∈ front ++ v :: back, w.Plain :=
      Value.plainItems_iff.1 (h.lookup hf hl).1
    exact ⟨h.plain.push (hitems v (by simp)), Scope.faithful_nil _ _, h.children hn⟩
  | inserted _ _ _ => exact ⟨h.plain, h.faithful, fun _ hkey => Template.keys_trimmed _ _ hkey⟩
  | called _ _ hl _ => exact (h.lookup hf hl).1.elim

theorem reaches (hf : st.env.Plain) (h : x.Regular st.env) (hr : st.Reaches x y) :
    y.Regular st.env := by
  induction hr with
  | refl => exact h
  | tail _ hm ih => exact ih.moves hf hm

end Point.Regular

end Stencil
