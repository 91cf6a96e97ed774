import Stencil.Proofs.Render.Likeness

/-!
# An account of a rendering

What a rendering meets on its way, in order: the texts it copies, the values it
shows, the partials it inserts or skips, and the lambdas its sections stand for. The
account is taken without rendering anything. As long as it tells of no lambda, the
rendering gives the texts told of, one behind the other, and ends where it ends.
-/

set_option autoImplicit false

namespace Stencil

variable {σ κ : Type}

inductive Event
  | text (t : String)
  | value (v : Value) (escaped : Bool)
  | lambda (id : Nat)
  | expanded (source : String)
  | skipped (name : String)

namespace Event

def shown : Event → String
  | text t => t
  | value v escaped => Setting.shown escaped v
  | lambda _ | expanded _ | skipped _ => ""

def written (es : List Event) : String := String.join (es.map shown)

@[simp] theorem written_nil : written [] = "" := rfl

@[simp] theorem written_cons (e : Event) (es : List Event) :
    written (e :: es) = e.shown ++ written es := by
  rw [written, List.map_cons, String.join_cons, written]

theorem written_single (e : Event) : written [e] = e.shown := by
  rw [written_cons, written_nil, String.append_empty]

@[simp] theorem written_append (es fs : List Event) :
    written (es ++ fs) = written es ++ written fs := by
  rw [written, List.map_append, String.join_append, written, written]

def Mute (es : List Event) : Prop := ∀ id, lambda id ∉ es

instance (es : List Event) : Decidable (Mute es) :=
  decidable_of_iff (∀ e ∈ es, (match e with | lambda _ => false | _ => true) = true) <| by
    constructor
    · intro h id hid
      cases h _ hid
    · intro h e he
      cases e with
      | lambda id => exact absurd he (h id)
      | _ => rfl

theorem mute_append {es fs : List Event} : Mute (es ++ fs) ↔ Mute es ∧ Mute fs := by
  simp only [Mute, List.mem_append, not_or, forall_and]

end Event

abbrev Tale (σ κ : Type) : Type := World σ κ → List Event × World σ κ

namespace Tale

def tell (es : List Event) : Tale σ κ := fun w => (es, w)

def andThen (a b : Tale σ κ) : Tale σ κ := fun w =>
  let (es, w) := a w
  let (fs, w) := b w
  (es ++ fs, w)

def look (env : Env σ) (scope : Scope) (key : String) (next : Value → Tale σ κ) : Tale σ κ :=
  fun w =>
    let ((v, memo), s) := scope.lookup env key.toList w.memo w.host
    next v { w with host := s, memo := memo }

def ask (partials : Partials σ) (name : String) (next : Option String → Tale σ κ) : Tale σ κ :=
  fun w =>
    let (found, s) := partials name w.host
    next found { w with host := s }

def inFrame (a : Tale σ κ) : Tale σ κ := fun w =>
  let (es, v) := a { w with memo := [] }
  (es, { v with memo := w.memo })

def each (a : Value → Tale σ κ) : List Value → Tale σ κ
  | [] => tell []
  | v :: vs => (a v).andThen (each a vs)

def expand (lib : Library κ) (d : Delimiters) (source : String) (next : List Node → Tale σ κ) :
    Tale σ κ := fun w =>
  let (t, k) := lib.parse d source w.library
  let (es, w) := next t.nodes { w with library := k }
  (.expanded source :: es, w)

def skip (name : String) : Tale σ κ := fun w =>
  ([.skipped name], { w with skipped := w.skipped ++ [name] })

end Tale

namespace Setting

mutual

def tellNode (st : Setting σ κ) (insert : String → Scope → Tale σ κ) (scope : Scope) :
    Node → Tale σ κ
  | .text t _ => .tell [.text t]
  | .comment _ _ => .tell []
  | .variableTag name escaped _ => .look st.env scope name fun v => .tell [.value v escaped]
  | .sectionTag name true _ _ children => .look st.env scope name fun v =>
    if v.blank then tellNodes st insert scope children else .tell []
  | .sectionTag name false _ _ children => .look st.env scope name fun
    | .lambda id => .tell [.lambda id]
    | .array items => .each (fun v => .inFrame (tellNodes st insert (scope.push v) children)) items
    | v => if v.truthy then .inFrame (tellNodes st insert (scope.push v) children) else .tell []
  | .partialTag name _ => insert name scope

def tellNodes (st : Setting σ κ) (insert : String → Scope → Tale σ κ) (scope : Scope) :
    List Node → Tale σ κ
  | [] => .tell []
  | n :: ns => (tellNode st insert scope n).andThen (tellNodes st insert scope ns)

end

def tellPartial (st : Setting σ κ) : (budget : Nat) → (name : String) → Scope → Tale σ κ
  | 0, name, _ => .skip name
  | budget + 1, name, scope =>
    .ask st.partials name fun
      | none => .tell []
      | some source => .expand st.library st.delimiters source
          (tellNodes st (tellPartial st budget) scope)

def account (st : Setting σ κ) (t : Template) (data : Value) : Tale σ κ :=
  st.tellNodes (st.tellPartial partialLimit) ⟨data, []⟩ t.nodes

def tellSection (st : Setting σ κ) (insert : String → Scope → Tale σ κ) (scope : Scope)
    (children : List Node) : Value → Tale σ κ
  | .lambda id => .tell [.lambda id]
  | .array items => .each (fun v => .inFrame (tellNodes st insert (scope.push v) children)) items
  | v => if v.truthy then .inFrame (tellNodes st insert (scope.push v) children) else .tell []

theorem tellNode_section (st : Setting σ κ) (insert : String → Scope → Tale σ κ) (scope : Scope)
    (name : String) (span body : Span) (children : List Node) :
    st.tellNode insert scope (.sectionTag name false span body children) =
      .look st.env scope name (st.tellSection insert scope children) := rfl

theorem tellSection_frame (st : Setting σ κ) (insert : String → Scope → Tale σ κ) (scope : Scope)
    (children : List Node) {v : Value} (h : v.Frame) :
    st.tellSection insert scope children v =
      if v.truthy then .inFrame (tellNodes st insert (scope.push v) children) else .tell [] := by
  cases v with
  | lambda id => exact h.elim
  | array items => exact h.elim
  | _ => rfl

end Setting

def Act.Follows (act : Act σ κ String) (a : Tale σ κ) : Prop :=
  ∀ w, Event.Mute (a w).1 → act w = .ok (Event.written (a w).1, (a w).2)

namespace Act.Follows

theorem pure {t : String} {es : List Event} (h : Event.written es = t) :
    Act.Follows (Pure.pure t : Act σ κ String) (.tell es) := by
  intro w _
  rw [← h]
  rfl

theorem append {act rest : Act σ κ String} {a b : Tale σ κ} (ha : act.Follows a)
    (hb : rest.Follows b) :
    Act.Follows (do let out ← act; let more ← rest; Pure.pure (out ++ more)) (a.andThen b) := by
  intro w hw
  obtain ⟨hwa, hwb⟩ := Event.mute_append.1 hw
  show (act w >>= fun r => rest r.2 >>= fun q => Except.ok (r.1 ++ q.1, q.2)) = _
  rw [ha w hwa]
  show (rest (a w).2 >>= fun q => Except.ok (Event.written (a w).1 ++ q.1, q.2)) = _
  rw [hb _ hwb]
  exact congrArg Except.ok (Prod.ext (Event.written_append _ _).symm rfl)

theorem lookup {env : Env σ} {scope : Scope} {key : String} {f : Value → Act σ κ String}
    {g : Value → Tale σ κ} (h : ∀ v, (f v).Follows (g v)) :
    Act.Follows (Act.lookup env scope key >>= f) (.look env scope key g) :=
  fun _ hw => h _ _ hw

theorem ask {partials : Partials σ} {name : String} {f : Option String → Act σ κ String}
    {g : Option String → Tale σ κ} (h : ∀ found, (f found).Follows (g found)) :
    Act.Follows (Act.source partials name >>= f) (.ask partials name g) :=
  fun _ hw => h _ _ hw

theorem inFrame {act : Act σ κ String} {a : Tale σ κ} (h : act.Follows a) :
    (Act.inFrame act).Follows a.inFrame := by
  intro w hw
  rw [Act.inFrame_eq, h { w with memo := [] } hw]
  rfl

theorem forEach {act : Value → Act σ κ String} {a : Value → Tale σ κ}
    (h : ∀ v, (act v).Follows (a v)) (vs : List Value) :
    (Setting.forEach act vs).Follows (.each a vs) := by
  induction vs with
  | nil => exact .pure rfl
  | cons v vs ih => exact .append (h v) ih

theorem skip (name : String) :
    Act.Follows (do Act.skip name; Pure.pure "" : Act σ κ String) (.skip name) := by
  intro w _
  rfl

theorem expand {lib : Library κ} {d : Delimiters} {source : String}
    {f : Template → Act σ κ String} {g : List Node → Tale σ κ}
    (h : (f (.parse d source)).Follows (g (Template.parse d source).nodes)) :
    Act.Follows (Act.parse lib d source >>= f) (.expand lib d source g) := by
  intro w hw
  have ht := lib.faithful d source w.library
  simp only [Tale.expand, ht] at hw
  show f (lib.parse d source w.library).1 { w with library := (lib.parse d source w.library).2 } = _
  rw [ht, h _ fun id hid => hw id (List.mem_cons_of_mem _ hid)]
  simp only [Tale.expand, ht, Event.written_cons, Event.shown, String.empty_append]

end Act.Follows

namespace Setting

variable {st : Setting σ κ}

mutual

theorem renderNode_follows {go : Detours σ κ} {insert : String → Scope → Tale σ κ}
    (hgo : ∀ name scope, (go.insert name scope).Follows (insert name scope)) (source : String)
    (scope : Scope) (n : Node) :
    (st.renderNode go source scope n).Follows (st.tellNode insert scope n) := by
  cases n with
  | text t span => exact .pure (Event.written_single _)
  | comment t span => exact .pure rfl
  | variableTag name escaped span => exact .lookup fun v => .pure (Event.written_single _)
  | partialTag name span => exact hgo name scope
  | sectionTag name inverted span body cs =>
    cases inverted with
    | true =>
      refine .lookup fun v => ?_
      split
      · exact renderNodes_follows hgo source scope cs
      · exact .pure rfl
    | false =>
      have hframe := fun v => Act.Follows.inFrame
        (renderNodes_follows hgo source (scope.push v) cs)
      rw [renderNode_section, tellNode_section]
      refine .lookup fun v => ?_
      cases v.branch with
      | lambda id => exact fun w hw => absurd (List.mem_singleton_self _) (hw id)
      | array items => exact .forEach hframe items
      | frame hv =>
        rw [sectionText_frame _ _ _ _ _ _ hv, tellSection_frame _ _ _ _ hv]
        split
        · exact hframe v
        · exact .pure rfl

theorem renderNodes_follows {go : Detours σ κ} {insert : String → Scope → Tale σ κ}
    (hgo : ∀ name scope, (go.insert name scope).Follows (insert name scope)) (source : String)
    (scope : Scope) (ns : List Node) :
    (st.renderNodes go source scope ns).Follows (st.tellNodes insert scope ns) := by
  cases ns with
  | nil => exact .pure rfl
  | cons n ns =>
    exact .append (renderNode_follows hgo source scope n) (renderNodes_follows hgo source scope ns)

end

theorem detours_follow (lambdas budget : Nat) (name : String) (scope : Scope) :
    ((st.detours lambdas budget).insert name scope).Follows
      (st.tellPartial budget name scope) := by
  induction budget generalizing name scope with
  | zero =>
    rw [detours_insert_zero]
    exact .skip name
  | succ b ih =>
    rw [detours_insert_succ, tellPartial]
    refine .ask fun found => ?_
    cases found with
    | none => exact .pure rfl
    | some source =>
      have hnodes : (st.renderTemplate (st.detours lambdas b) (.parse st.delimiters source)
          scope).Follows _ := renderNodes_follows ih source scope _
      exact .expand (f := fun t => st.renderTemplate (st.detours lambdas b) t scope) hnodes

/-- A rendering that meets no lambda gives the texts of its account. -/
theorem render_follows (t : Template) (data : Value) :
    (st.render t data).Follows (st.account t data) :=
  renderNodes_follows (detours_follow st.lambdaLimit partialLimit) t.source ⟨data, []⟩ t.nodes

end Setting

end Stencil
