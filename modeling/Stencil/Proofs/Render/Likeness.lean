import Stencil.Proofs.Render.Agreement
import Mathlib.Data.List.Forall2

/-!
# Renderings side by side

One tree rendered twice, against values and with libraries that stand for one
another. If lookups give values that stand for one another, and such values
display, branch and repeat alike, both renderings take the same steps: they give
the same text, or fail alike where lambdas may be met.
-/

set_option autoImplicit false

namespace Stencil

variable {σ κ κ' α β γ δ : Type}

/-- How two renderings are compared: the values found that stand for one another, the
values that a rendering may start from, the states of the libraries, and whether lambdas
may be met. -/
structure Likeness (κ κ' : Type) where
  value : Value → Value → Prop
  frame : Value → Value → Prop
  library : κ → κ' → Prop
  lambdas : Prop

def Value.Frame : Value → Prop
  | .lambda _ | .array _ => False
  | _ => True

inductive Value.Branch : Value → Prop
  | lambda (id : Nat) : Branch (.lambda id)
  | array (items : List Value) : Branch (.array items)
  | frame {v : Value} : v.Frame → Branch v

theorem Value.branch (v : Value) : v.Branch := by
  cases v with
  | lambda id => exact .lambda id
  | array items => exact .array items
  | _ => exact .frame trivial

inductive Outcomes (faults : Prop) (R : α → β → Prop) :
    Except RenderFault α → Except RenderFault β → Prop
  | ok {a : α} {b : β} : R a b → Outcomes faults R (.ok a) (.ok b)
  | error (f : RenderFault) : faults → Outcomes faults R (.error f) (.error f)

inductive Handling.Asks (P : String → Prop) : Handling σ → Prop
  | answer {v : Value} {s : σ} : Asks P (.answer v s)
  | render {text : String} {s : σ} {resume : String → σ → Handling σ} :
      P text → (∀ out s, Asks P (resume out s)) → Asks P (.render text s resume)

theorem Handling.Asks.of_forall {P : String → Prop} (hP : ∀ text, P text) (h : Handling σ) :
    h.Asks P := by
  induction h with
  | answer v s => exact .answer
  | render text s resume ih => exact .render (hP text) ih

theorem Handling.Asks.mono {P Q : String → Prop} (hPQ : ∀ text, P text → Q text)
    {h : Handling σ} (ha : h.Asks P) : h.Asks Q := by
  induction ha with
  | answer => exact .answer
  | render htext _ ih => exact .render (hPQ _ htext) ih

theorem Outcomes.bind {faults : Prop} {R : α → β → Prop} {S : γ → δ → Prop}
    {x : Except RenderFault α} {y : Except RenderFault β} {f : α → Except RenderFault γ}
    {g : β → Except RenderFault δ} (h : Outcomes faults R x y)
    (hf : ∀ a b, R a b → Outcomes faults S (f a) (g b)) : Outcomes faults S (x >>= f) (y >>= g) := by
  cases h with
  | ok hr => exact hf _ _ hr
  | error e he => exact .error e he

theorem Act.inFrame_eq (act : Act σ κ α) (w : World σ κ) :
    Act.inFrame act w =
      act { w with memo := [] } >>= fun r => .ok (r.1, { r.2 with memo := w.memo }) := by
  unfold Act.inFrame
  cases act { w with memo := [] } <;> rfl

theorem Handling.run_render_eq (callback : String → Act σ κ String) (text : String) (s : σ)
    (resume : String → σ → Handling σ) (w : World σ κ) :
    (Handling.render text s resume).run callback w =
      callback text { w with host := s } >>= fun r => (resume r.1 r.2.host).run callback r.2 := by
  rw [Handling.run_render]
  cases callback text { w with host := s } <;> rfl

/-- In some state of the host the partial of this name has this source. -/
def Partials.Gives (partials : Partials σ) (name source : String) : Prop :=
  ∃ s, (partials name s).1 = some source

theorem Partials.Gives.of_single {only text name source : String}
    (h : (table fun other => if other = only then some text else none : Partials σ).Gives
      name source) : source = text := by
  obtain ⟨_, hs⟩ := h
  change (if name = only then some text else none) = some source at hs
  split at hs
  · exact (Option.some.inj hs).symm
  · cases hs

namespace Likeness

variable (l : Likeness κ κ')

inductive Sections : Value → Value → Prop
  | lambda (id : Nat) : l.lambdas → Sections (.lambda id) (.lambda id)
  | array {items items' : List Value} :
      List.Forall₂ l.value items items' → Sections (.array items) (.array items')
  | frame {v v' : Value} :
      v.Frame → v'.Frame → v.truthy = v'.truthy → l.value v v' → Sections v v'

structure Sound : Prop where
  framed : ∀ {v v'}, l.value v v' → l.frame v v'
  shown : ∀ {v v'}, l.value v v' → ∀ escaped, Setting.shown escaped v = Setting.shown escaped v'
  blank : ∀ {v v'}, l.value v v' → v.blank = v'.blank
  sections : ∀ {v v'}, l.value v v' → l.Sections v v'

def Entries (e e' : String × Option Value) : Prop := e.1 = e'.1 ∧ Option.Rel l.value e.2 e'.2

section Equal

variable {l} (h : l.value = (· = ·))
include h

theorem Sound.of_eq (hf : ∀ v, l.frame v v) (hl : l.lambdas) : l.Sound where
  framed {v v'} hv := by
    rw [h] at hv
    exact hv ▸ hf v
  shown hv _ := by
    rw [h] at hv
    rw [hv]
  blank hv := by
    rw [h] at hv
    rw [hv]
  sections {v v'} hv := by
    rw [h] at hv
    subst hv
    have hself : ∀ w, l.value w w := fun w => by rw [h]
    cases v with
    | lambda id => exact .lambda id hl
    | array items => exact .array (List.forall₂_same.2 fun w _ => hself w)
    | _ => exact .frame trivial trivial rfl (hself _)

theorem entries_iff {m m' : Memo} : List.Forall₂ l.Entries m m' ↔ m = m' := by
  have he : l.Entries = Eq := by
    funext e e'
    obtain ⟨k, v⟩ := e
    obtain ⟨k', v'⟩ := e'
    cases v <;> cases v' <;> simp [Likeness.Entries, h, Option.rel_some_some]
  rw [he, List.forall₂_eq_eq_eq]

end Equal

structure Worlds (w : World σ κ) (w' : World σ κ') : Prop where
  host : w.host = w'.host
  library : l.library w.library w'.library
  memo : List.Forall₂ l.Entries w.memo w'.memo
  skipped : w.skipped = w'.skipped

structure Scopes (s s' : Scope) : Prop where
  value : l.frame s.value s'.value
  outer : List.Forall₂ l.frame s.outer s'.outer
  found : s.outer ≠ [] → l.value s.value s'.value

variable {l} in
theorem Scopes.push (hl : l.Sound) {s s' : Scope} (h : l.Scopes s s') {v v' : Value}
    (hv : l.value v v') : l.Scopes (s.push v) (s'.push v') :=
  ⟨hl.framed hv, .cons h.value h.outer, fun _ => hv⟩

def Acts (R : α → β → Prop) (act : Act σ κ α) (act' : Act σ κ' β) : Prop :=
  ∀ ⦃w : World σ κ⦄ ⦃w' : World σ κ'⦄, l.Worlds w w' →
    Outcomes l.lambdas (fun r r' => R r.1 r'.1 ∧ l.Worlds r.2 r'.2) (act w) (act' w')

namespace Acts

variable {l} {R : α → β → Prop}

theorem pure {a : α} {b : β} (h : R a b) :
    l.Acts R (Pure.pure a : Act σ κ α) (Pure.pure b : Act σ κ' β) :=
  fun _ _ hw => .ok ⟨h, hw⟩

theorem bind {S : γ → δ → Prop} {act : Act σ κ α} {act' : Act σ κ' β} {f : α → Act σ κ γ}
    {f' : β → Act σ κ' δ} (h : l.Acts R act act') (hf : ∀ a b, R a b → l.Acts S (f a) (f' b)) :
    l.Acts S (act >>= f) (act' >>= f') := by
  intro w w' hw
  show Outcomes _ _ (act w >>= fun r => f r.1 r.2) (act' w' >>= fun r => f' r.1 r.2)
  exact (h hw).bind fun r r' hr => hf _ _ hr.1 hr.2

/-- A frame starts with nothing remembered on both sides, and what it remembers is
dropped with it. -/
theorem inFrame {act : Act σ κ α} {act' : Act σ κ' β} (h : l.Acts R act act') :
    l.Acts R (Act.inFrame act) (Act.inFrame act') := by
  intro w w' hw
  have hin : l.Worlds { w with memo := [] } { w' with memo := [] } :=
    ⟨hw.host, hw.library, .nil, hw.skipped⟩
  rw [Act.inFrame_eq, Act.inFrame_eq]
  exact (h hin).bind fun r r' hr =>
    .ok ⟨hr.1, hr.2.host, hr.2.library, hw.memo, hr.2.skipped⟩

theorem parse {lib : Library κ} {lib' : Library κ'} {d : Delimiters} {source : String}
    (h : ∀ k k', l.library k k' →
      l.library (lib.parse d source k).2 (lib'.parse d source k').2) :
    l.Acts (fun t t' => t = .parse d source ∧ t' = .parse d source)
      (Act.parse lib d source : Act σ κ Template)
      (Act.parse lib' d source : Act σ κ' Template) := fun _ _ hw =>
  .ok ⟨⟨lib.faithful _ _ _, lib'.faithful _ _ _⟩, hw.host, h _ _ hw.library, hw.memo, hw.skipped⟩

theorem source (partials : Partials σ) (name : String) :
    l.Acts (fun found found' => found = found' ∧ ∀ s, found = some s → partials.Gives name s)
      (Act.source partials name : Act σ κ (Option String))
      (Act.source partials name : Act σ κ' (Option String)) := by
  intro w w' hw
  rw [Act.source, Act.source, ← hw.host]
  exact .ok ⟨⟨rfl, fun s hs => ⟨w.host, hs⟩⟩, rfl, hw.library, hw.memo, hw.skipped⟩

theorem skip (name : String) :
    l.Acts (· = ·) (Act.skip name : Act σ κ Unit) (Act.skip name : Act σ κ' Unit) :=
  fun _ _ hw => .ok ⟨rfl, hw.host, hw.library, hw.memo, by simp only [hw.skipped]⟩

theorem fault (f : RenderFault) (h : l.lambdas) :
    l.Acts R (Act.fault f : Act σ κ α) (Act.fault f : Act σ κ' β) :=
  fun _ _ _ => .error f h

theorem run {P : String → Prop} {callback : String → Act σ κ String}
    {callback' : String → Act σ κ' String}
    (hc : ∀ text, P text → l.Acts (· = ·) (callback text) (callback' text)) {h : Handling σ}
    (ha : h.Asks P) : l.Acts (· = ·) (h.run callback) (h.run callback') := by
  induction ha with
  | answer =>
    intro w w' hw
    rw [Handling.run, Handling.run]
    exact .ok ⟨rfl, rfl, hw.library, hw.memo, hw.skipped⟩
  | @render text s resume htext _ ih =>
    intro w w' hw
    rw [Handling.run_render_eq, Handling.run_render_eq]
    have hstart : l.Worlds { w with host := s } { w' with host := s } :=
      ⟨rfl, hw.library, hw.memo, hw.skipped⟩
    refine (hc text htext hstart).bind fun r r' hr => ?_
    obtain ⟨out, u⟩ := r
    obtain ⟨out', u'⟩ := r'
    obtain ⟨rfl, hu⟩ := hr
    show Outcomes _ _ ((resume out u.host).run callback u) ((resume out u'.host).run callback' u')
    rw [← hu.host]
    exact ih out u.host hu

theorem lambda {P : String → Prop} {host : Host σ} {callback : String → Act σ κ String}
    {callback' : String → Act σ κ' String}
    (hc : ∀ text, P text → l.Acts (· = ·) (callback text) (callback' text)) {id : Nat}
    {body : String} (ha : ∀ s, (host.lambda id body s).Asks P) :
    l.Acts (· = ·) (fun w => (host.lambda id body w.host).run callback w)
      (fun w => (host.lambda id body w.host).run callback' w) := by
  intro w w' hw
  show Outcomes _ _ ((host.lambda id body w.host).run callback w)
    ((host.lambda id body w'.host).run callback' w')
  rw [← hw.host]
  exact run hc (ha w.host) hw

theorem forEach {act : Value → Act σ κ String} {act' : Value → Act σ κ' String}
    (h : ∀ v v', l.value v v' → l.Acts (· = ·) (act v) (act' v')) {vs vs' : List Value}
    (hvs : List.Forall₂ l.value vs vs') :
    l.Acts (· = ·) (Setting.forEach act vs) (Setting.forEach act' vs') := by
  induction hvs with
  | nil => exact .pure rfl
  | cons hv _ ih =>
    refine .bind (h _ _ hv) fun out _ ho => .bind ih fun rest _ hr => .pure ?_
    rw [ho, hr]

end Acts

/-- Equal values, rendered with libraries that stand for one another. -/
def ofLibraries (R : κ → κ' → Prop) : Likeness κ κ' := ⟨(· = ·), (· = ·), R, True⟩

section Libraries

variable {R : κ → κ' → Prop}

theorem ofLibraries_sound (R : κ → κ' → Prop) : (ofLibraries R).Sound :=
  .of_eq rfl (fun _ => rfl) trivial

theorem ofLibraries_entries {m m' : Memo} :
    List.Forall₂ (ofLibraries R).Entries m m' ↔ m = m' := entries_iff rfl

theorem ofLibraries_scopes {s s' : Scope} : (ofLibraries R).Scopes s s' ↔ s = s' := by
  obtain ⟨v, vs⟩ := s
  obtain ⟨v', vs'⟩ := s'
  constructor
  · intro h
    have ho : List.Forall₂ (· = ·) vs vs' := h.outer
    rw [List.forall₂_eq_eq_eq] at ho
    obtain rfl : v = v' := h.value
    obtain rfl : vs = vs' := ho
    rfl
  · rintro ⟨rfl, rfl⟩
    exact ⟨rfl, List.forall₂_same.2 fun _ _ => rfl, fun _ => rfl⟩

/-- Looking a key up is the same to both sides, and reaches neither library. -/
theorem ofLibraries_lookup {host : Host σ} {fs gs : Formatters}
    (h : ∀ name, fs.get? name = gs.get? name) (key : String) {scope scope' : Scope}
    (hs : (ofLibraries R).Scopes scope scope') :
    (ofLibraries R).Acts (· = ·) (Act.lookup ⟨host, fs⟩ scope key : Act σ κ Value)
      (Act.lookup ⟨host, gs⟩ scope' key : Act σ κ' Value) := by
  intro w w' hw
  obtain rfl := ofLibraries_scopes.1 hs
  have hm := ofLibraries_entries.1 hw.memo
  rw [Act.lookup, Act.lookup, Scope.lookup_congr h, ← hw.host, ← hm]
  exact .ok ⟨rfl, rfl, hw.library, ofLibraries_entries.2 rfl, hw.skipped⟩

end Libraries

end Likeness

structure Setting.Alike (l : Likeness κ κ') (K : String → Prop) (st : Setting σ κ)
    (st' : Setting σ κ') : Prop where
  host : st.env.host = st'.env.host
  partials : st.partials = st'.partials
  delimiters : st.delimiters = st'.delimiters
  lambdaLimit : st.lambdaLimit = st'.lambdaLimit
  library : ∀ d source k k', l.library k k' →
    l.library (st.library.parse d source k).2 (st'.library.parse d source k').2
  lookup : ∀ key, K key → ∀ scope scope', l.Scopes scope scope' →
    l.Acts l.value (Act.lookup st.env scope key : Act σ κ Value)
      (Act.lookup st'.env scope' key : Act σ κ' Value)

namespace Node

mutual

def keys : Node → List String
  | variableTag name _ _ => [name]
  | sectionTag name _ _ _ children => name :: keysAll children
  | _ => []

def keysAll : List Node → List String
  | [] => []
  | n :: ns => keys n ++ keysAll ns

end

end Node

/-- Every text that is parsed on the way, for a partial or for a lambda, has keys that
satisfy `K`. -/
structure Setting.Reads (K : String → Prop) (lambdas : Prop) (st : Setting σ κ) : Prop where
  partials : ∀ name source, st.partials.Gives name source →
    ∀ key ∈ Node.keysAll (Template.parse st.delimiters source).nodes, K key
  callbacks : lambdas → ∀ id body s, (st.env.host.lambda id body s).Asks fun text =>
    ∀ key ∈ Node.keysAll (Template.parse st.delimiters text).nodes, K key

theorem Setting.reads_all (lambdas : Prop) (st : Setting σ κ) :
    st.Reads (fun _ => True) lambdas :=
  ⟨fun _ _ _ _ _ => trivial, fun _ _ _ _ => .of_forall (fun _ _ _ => trivial) _⟩

/-- Detours that come to like ends in like scopes, for texts whose keys satisfy `K`. Without
lambdas nothing is called back. -/
structure Detours.Alike (l : Likeness κ κ') (K : String → Prop) (d : Delimiters)
    (go : Detours σ κ) (go' : Detours σ κ') : Prop where
  insert : ∀ name scope scope', l.Scopes scope scope' →
    l.Acts (· = ·) (go.insert name scope) (go'.insert name scope')
  callback : l.lambdas → ∀ text,
    (∀ key ∈ Node.keysAll (Template.parse d text).nodes, K key) → ∀ scope scope',
      l.Scopes scope scope' → l.Acts (· = ·) (go.callback text scope) (go'.callback text scope')

namespace Setting

def sectionText (st : Setting σ κ) (go : Detours σ κ) (source : String) (scope : Scope)
    (body : Span) (children : List Node) : Value → Act σ κ String
  | .lambda id => do
    let s := (← get).host
    let raw := String.ofList (body.slice source.toList)
    let v ← (st.env.host.lambda id raw s).run fun text => go.callback text scope
    pure v.display
  | .array items =>
    forEach (fun v => Act.inFrame (renderNodes st go source (scope.push v) children)) items
  | v => if v.truthy then Act.inFrame (renderNodes st go source (scope.push v) children)
    else pure ""

theorem renderNode_section (st : Setting σ κ) (go : Detours σ κ) (source : String)
    (scope : Scope) (name : String) (span body : Span) (children : List Node) :
    st.renderNode go source scope (.sectionTag name false span body children) =
      Act.lookup st.env scope name >>= st.sectionText go source scope body children := rfl

theorem sectionText_frame (st : Setting σ κ) (go : Detours σ κ) (source : String)
    (scope : Scope) (body : Span) (children : List Node) {v : Value} (h : v.Frame) :
    st.sectionText go source scope body children v =
      if v.truthy then Act.inFrame (st.renderNodes go source (scope.push v) children)
      else pure "" := by
  cases v with
  | lambda id => exact h.elim
  | array items => exact h.elim
  | _ => rfl

section Alike

variable {l : Likeness κ κ'} {K : String → Prop} {st : Setting σ κ} {st' : Setting σ κ'}

mutual

theorem renderNode_alike (hl : l.Sound) (hst : st.Alike l K st') (hr : st.Reads K l.lambdas)
    {go : Detours σ κ} {go' : Detours σ κ'} (hgo : go.Alike l K st.delimiters go') (source : String) {scope scope' : Scope}
    (hs : l.Scopes scope scope') (n : Node) (hn : ∀ key ∈ n.keys, K key) :
    l.Acts (· = ·) (st.renderNode go source scope n) (st'.renderNode go' source scope' n) := by
  cases n with
  | text t span => exact .pure rfl
  | comment t span => exact .pure rfl
  | variableTag name escaped span =>
    have hk := hst.lookup name (hn name (by simp [Node.keys])) scope scope' hs
    exact .bind hk fun v v' hv => .pure (hl.shown hv escaped)
  | partialTag name span => exact hgo.insert name scope scope' hs
  | sectionTag name inverted span body cs =>
    have hk := hst.lookup name (hn name (by simp [Node.keys])) scope scope' hs
    have hcs : ∀ key ∈ Node.keysAll cs, K key := fun key h => hn key (by simp [Node.keys, h])
    cases inverted with
    | true =>
      refine .bind hk fun v v' hv => ?_
      rw [hl.blank hv]
      split
      · exact renderNodes_alike hl hst hr hgo source hs cs hcs
      · exact .pure rfl
    | false =>
      have hframe : ∀ v v', l.value v v' → l.Acts (· = ·)
          (Act.inFrame (st.renderNodes go source (scope.push v) cs))
          (Act.inFrame (st'.renderNodes go' source (scope'.push v') cs)) := fun v v' hv =>
        .inFrame (renderNodes_alike hl hst hr hgo source (hs.push hl hv) cs hcs)
      rw [renderNode_section, renderNode_section]
      refine .bind hk fun v v' hv => ?_
      cases hl.sections hv with
      | lambda id hlambdas =>
        have hc := fun text ht => hgo.callback hlambdas text ht scope scope' hs
        have hrun := Likeness.Acts.lambda hc
          (hr.callbacks hlambdas id (String.ofList (body.slice source.toList)))
        rw [sectionText, sectionText, ← hst.host]
        exact hrun.bind fun v v' hv => .pure (by rw [hv])
      | array hvs => exact .forEach hframe hvs
      | frame hv₁ hv₂ ht hv =>
        rw [sectionText_frame st go source scope body cs hv₁,
          sectionText_frame st' go' source scope' body cs hv₂, ht]
        split
        · exact hframe _ _ hv
        · exact .pure rfl

theorem renderNodes_alike (hl : l.Sound) (hst : st.Alike l K st') (hr : st.Reads K l.lambdas)
    {go : Detours σ κ} {go' : Detours σ κ'} (hgo : go.Alike l K st.delimiters go') (source : String) {scope scope' : Scope}
    (hs : l.Scopes scope scope') (ns : List Node) (hns : ∀ key ∈ Node.keysAll ns, K key) :
    l.Acts (· = ·) (st.renderNodes go source scope ns)
      (st'.renderNodes go' source scope' ns) := by
  cases ns with
  | nil => exact .pure rfl
  | cons n ns =>
    have hn := renderNode_alike hl hst hr hgo source hs n
      fun key h => hns key (by simp [Node.keysAll, h])
    have hrest := renderNodes_alike hl hst hr hgo source hs ns
      fun key h => hns key (by simp [Node.keysAll, h])
    refine .bind hn fun out _ ho => .bind hrest fun rest _ hr => .pure ?_
    rw [ho, hr]

end

theorem renderSource_alike (hl : l.Sound) (hst : st.Alike l K st') (hr : st.Reads K l.lambdas)
    {go : Detours σ κ} {go' : Detours σ κ'} (hgo : go.Alike l K st.delimiters go') {source : String}
    (hk : ∀ key ∈ Node.keysAll (Template.parse st.delimiters source).nodes, K key)
    {scope scope' : Scope} (hs : l.Scopes scope scope') :
    l.Acts (· = ·) (st.renderSource go source scope) (st'.renderSource go' source scope') := by
  rw [renderSource, renderSource, ← hst.delimiters]
  refine .bind (.parse (hst.library st.delimiters source)) fun t t' ht => ?_
  obtain ⟨rfl, rfl⟩ := ht
  exact renderNodes_alike hl hst hr hgo source hs _ hk

theorem detours_alike (hl : l.Sound) (hst : st.Alike l K st') (hr : st.Reads K l.lambdas)
    (lambdas partials : Nat) :
    (st.detours lambdas partials).Alike l K st.delimiters (st'.detours lambdas partials) := by
  constructor
  case insert =>
    intro name scope scope' hs
    cases partials with
    | zero =>
      rw [detours_insert_zero, detours_insert_zero]
      exact .bind (.skip name) fun _ _ _ => .pure rfl
    | succ p =>
      rw [detours_insert_succ, detours_insert_succ, ← hst.partials]
      refine .bind (.source st.partials name) fun found _ hfound => ?_
      obtain ⟨rfl, hgives⟩ := hfound
      cases found with
      | none => exact .pure rfl
      | some source =>
        exact renderSource_alike hl hst hr (detours_alike hl hst hr lambdas p)
          (hr.partials name source (hgives source rfl)) hs
  case callback =>
    intro hlambdas text htext scope scope' hs
    cases lambdas with
    | zero =>
      rw [detours_callback_zero, detours_callback_zero]
      exact .fault _ hlambdas
    | succ n =>
      rw [detours_callback_succ, detours_callback_succ]
      exact renderSource_alike hl hst hr (detours_alike hl hst hr n partials) htext hs
termination_by lambdas + partials

/-- Renderings of one template against values that stand for one another. -/
theorem render_alike (hl : l.Sound) (hst : st.Alike l K st') (hr : st.Reads K l.lambdas)
    {t : Template} (ht : ∀ key ∈ Node.keysAll t.nodes, K key) {data data' : Value}
    (hd : l.frame data data') :
    l.Acts (· = ·) (st.render t data) (st'.render t data') := by
  rw [render, render, ← hst.lambdaLimit]
  exact renderNodes_alike hl hst hr (detours_alike hl hst hr st.lambdaLimit partialLimit) t.source
    ⟨hd, .nil, fun h => absurd rfl h⟩ t.nodes ht

end Alike

end Setting

end Stencil
