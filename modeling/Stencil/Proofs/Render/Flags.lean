import Stencil.Proofs.Render.Reached

/-!
# Flags

A flag is true or a number other than zero. A section on a flag puts a frame without
properties into every chain below it, which names without a dot in front pass over. So
its children are rendered as if there were no section around them.
-/

set_option autoImplicit false

namespace Stencil

variable {σ κ α β : Type}

namespace Value

def Flag : Value → Prop
  | bool b => b = true
  | int i => i ≠ 0
  | float f => (f != 0) = true ∧ f.isNaN = false
  | _ => False

namespace Flag

variable {v : Value} (h : v.Flag)
include h

theorem bare : v.bare = true := by
  cases v with
  | bool | int | float => rfl
  | _ => exact h.elim

theorem truthy : v.truthy = true := by
  cases v with
  | bool b => exact h
  | int i => exact bne_iff_ne.2 h
  | float f =>
    obtain ⟨hzero, hnan⟩ := h
    rw [Value.truthy, hzero, hnan]
    rfl
  | _ => exact h.elim

theorem frame : v.Frame := by
  cases v with
  | bool | int | float => exact trivial
  | _ => exact h.elim

end Flag

end Value

structure World.Level (env : Env σ) (s s' : Scope) (w w' : World σ κ) : Prop where
  host : w.host = w'.host
  library : w.library = w'.library
  skipped : w.skipped = w'.skipped
  faithful : s.Faithful env w.memo
  faithful' : s'.Faithful env w'.memo

def Act.Level (env : Env σ) (s s' : Scope) (act act' : Act σ κ α) : Prop :=
  ∀ ⦃w w' : World σ κ⦄, w.Level env s s' w' →
    ∃ a u u', act w = .ok (a, u) ∧ act' w' = .ok (a, u') ∧ u.Level env s s' u'

namespace Act.Level

variable {env : Env σ} {s s' : Scope}

theorem pure (a : α) : Level env s s' (Pure.pure a : Act σ κ α) (Pure.pure a) :=
  fun w w' hw => ⟨a, w, w', rfl, rfl, hw⟩

theorem bind {act act' : Act σ κ α} {f f' : α → Act σ κ β} (h : Level env s s' act act')
    (hf : ∀ a, Level env s s' (f a) (f' a)) : Level env s s' (act >>= f) (act' >>= f') := by
  intro w w' hw
  obtain ⟨a, u, u', ha, ha', hu⟩ := h hw
  obtain ⟨b, v, v', hb, hb', hv⟩ := hf a hu
  exact ⟨b, v, v', bind_ok.2 ⟨a, u, ha, hb⟩, bind_ok.2 ⟨a, u', ha', hb'⟩, hv⟩

/-- A key without a dot in front stands for the same data in both frames. -/
theorem lookup (hf : env.Plain) (hs : s.Level s') {key : String}
    (ht : Text.trim key.toList = key.toList) (hk : Key.Undotted key)
    {f f' : Value → Act σ κ β} (h : ∀ v, v.Plain → Level env s s' (f v) (f' v)) :
    Level env s s' (Act.lookup env s key >>= f) (Act.lookup env s' key >>= f') := by
  intro w w' hw
  obtain ⟨r, memo, hr, hplain, hl, hm⟩ := Act.lookup_plain env hs.plain hw.faithful key
  obtain ⟨r', memo', hr', -, hl', hm'⟩ := Act.lookup_plain env hs.plain' hw.faithful' key
  rw [hs.resolveAfresh_eq env (by rw [Key.name_lookup ht]; exact hk), hr'] at hr
  obtain rfl : r' = r := congrArg Prod.fst (congrFun hr w.host)
  obtain ⟨u, hu, huplain⟩ := hf.valued key hplain
  rw [hu] at hl hl'
  have hstart : World.Level env s s' { w with memo := memo } { w' with memo := memo' } :=
    ⟨hw.host, hw.library, hw.skipped, hm, hm'⟩
  obtain ⟨b, v, v', hb, hb', hv⟩ := h u huplain hstart
  exact ⟨b, v, v', bind_ok.2 ⟨_, _, hl, hb⟩, bind_ok.2 ⟨_, _, hl', hb'⟩, hv⟩

theorem inFrame {inner inner' : Scope} {act act' : Act σ κ α}
    (h : Level env inner inner' act act') :
    Level env s s' (Act.inFrame act) (Act.inFrame act') := by
  intro w w' hw
  have hstart : World.Level env inner inner' { w with memo := [] } { w' with memo := [] } :=
    ⟨hw.host, hw.library, hw.skipped, Scope.faithful_nil _ _, Scope.faithful_nil _ _⟩
  obtain ⟨a, u, u', ha, ha', hu⟩ := h hstart
  refine ⟨a, { u with memo := w.memo }, { u' with memo := w'.memo }, ?_, ?_, hu.host, hu.library,
    hu.skipped, hw.faithful, hw.faithful'⟩
  · rw [inFrame_eq, ha]
    rfl
  · rw [inFrame_eq, ha']
    rfl

theorem forEach {act act' : Value → Act σ κ String} {vs : List Value}
    (h : ∀ v ∈ vs, Level env s s' (act v) (act' v)) :
    Level env s s' (Setting.forEach act vs) (Setting.forEach act' vs) := by
  induction vs with
  | nil => exact .pure _
  | cons v vs ih =>
    rw [List.forall_mem_cons] at h
    exact .bind h.1 fun _ => .bind (ih h.2) fun _ => .pure _

theorem parse (lib : Library κ) (d : Delimiters) (source : String) {f f' : Template → Act σ κ β}
    (h : Level env s s' (f (.parse d source)) (f' (.parse d source))) :
    Level env s s' (Act.parse lib d source >>= f) (Act.parse lib d source >>= f') := by
  intro w w' hw
  have hstart : World.Level env s s' { w with library := (lib.parse d source w.library).2 }
      { w' with library := (lib.parse d source w'.library).2 } :=
    ⟨hw.host, by rw [hw.library], hw.skipped, hw.faithful, hw.faithful'⟩
  obtain ⟨b, v, v', hb, hb', hv⟩ := h hstart
  exact ⟨b, v, v', bind_ok.2 ⟨_, _, parse_eq lib d source w, hb⟩,
    bind_ok.2 ⟨_, _, parse_eq lib d source w', hb'⟩, hv⟩

theorem source (partials : Partials σ) (name : String) {f f' : Option String → Act σ κ β}
    (h : ∀ found, (∀ source, found = some source → partials.Gives name source) →
      Level env s s' (f found) (f' found)) :
    Level env s s' (Act.source partials name >>= f) (Act.source partials name >>= f') := by
  intro w w' hw
  have hstart : World.Level env s s' { w with host := (partials name w.host).2 }
      { w' with host := (partials name w.host).2 } :=
    ⟨rfl, hw.library, hw.skipped, hw.faithful, hw.faithful'⟩
  obtain ⟨b, v, v', hb, hb', hv⟩ := h (partials name w.host).1 (fun _ hs => ⟨w.host, hs⟩) hstart
  rw [hw.host] at hb'
  exact ⟨b, v, v', bind_ok.2 ⟨_, _, rfl, hb⟩, bind_ok.2 ⟨_, _, rfl, hb'⟩, hv⟩

theorem skip (name : String) :
    Level env s s' (Act.skip name : Act σ κ Unit) (Act.skip name) :=
  fun _ _ hw => ⟨(), _, _, rfl, rfl, hw.host, hw.library, by simp only [hw.skipped], hw.faithful,
    hw.faithful'⟩

end Act.Level

def Node.Undotted (ns : List Node) : Prop :=
  ∀ key ∈ Node.keysAll ns, Text.trim key.toList = key.toList ∧ Key.Undotted key

namespace Setting

variable {st : Setting σ κ}

mutual

theorem renderNode_level (hf : st.env.Plain) {go : Detours σ κ}
    (hgo : ∀ name {s s' : Scope}, s.Level s' →
      Act.Level st.env s s' (go.insert name s) (go.insert name s')) (source : String)
    {s s' : Scope} (hs : s.Level s') (n : Node)
    (hn : ∀ key ∈ n.keys, Text.trim key.toList = key.toList ∧ Key.Undotted key) :
    Act.Level st.env s s' (st.renderNode go source s n) (st.renderNode go source s' n) := by
  cases n with
  | text t span => exact .pure _
  | comment t span => exact .pure _
  | partialTag name span => exact hgo name hs
  | variableTag name escaped span =>
    obtain ⟨ht, hk⟩ := hn name (by simp [Node.keys])
    exact .lookup hf hs ht hk fun _ _ => .pure _
  | sectionTag name inverted span body cs =>
    obtain ⟨ht, hk⟩ := hn name (by simp [Node.keys])
    have hcs : Node.Undotted cs := fun key h => hn key (by simp [Node.keys, h])
    cases inverted with
    | true =>
      refine .lookup hf hs ht hk fun v _ => ?_
      split
      · exact renderNodes_level hf hgo source hs cs hcs
      · exact .pure _
    | false =>
      have hframe : ∀ v, v.Plain → Act.Level st.env s s'
          (Act.inFrame (st.renderNodes go source (s.push v) cs))
          (Act.inFrame (st.renderNodes go source (s'.push v) cs)) := fun v hv =>
        .inFrame (renderNodes_level hf hgo source (hs.push hv) cs hcs)
      rw [renderNode_section, renderNode_section]
      refine .lookup hf hs ht hk fun v hv => ?_
      cases v.branch with
      | lambda id => exact hv.elim
      | array items => exact .forEach fun v hmem => hframe v (Value.plainItems_iff.1 hv v hmem)
      | frame hfr =>
        rw [sectionText_frame _ _ _ _ _ _ hfr, sectionText_frame _ _ _ _ _ _ hfr]
        split
        · exact hframe v hv
        · exact .pure _

theorem renderNodes_level (hf : st.env.Plain) {go : Detours σ κ}
    (hgo : ∀ name {s s' : Scope}, s.Level s' →
      Act.Level st.env s s' (go.insert name s) (go.insert name s')) (source : String)
    {s s' : Scope} (hs : s.Level s') (ns : List Node) (hns : Node.Undotted ns) :
    Act.Level st.env s s' (st.renderNodes go source s ns) (st.renderNodes go source s' ns) := by
  cases ns with
  | nil => exact .pure _
  | cons n ns =>
    have hn := renderNode_level hf hgo source hs n fun key h => hns key (by simp [Node.keysAll, h])
    have hrest := renderNodes_level hf hgo source hs ns
      fun key h => hns key (by simp [Node.keysAll, h])
    exact .bind hn fun _ => .bind hrest fun _ => .pure _

end

/-- Partials whose keys have no dot in front are rendered alike in frames on a level. -/
theorem insert_level (hf : st.env.Plain)
    (hp : ∀ name source, st.partials.Gives name source →
      ∀ key ∈ Node.keysAll (Template.parse st.delimiters source).nodes, Key.Undotted key)
    (lambdas partials : Nat) (name : String) {s s' : Scope} (hs : s.Level s') :
    Act.Level st.env s s' ((st.detours lambdas partials).insert name s)
      ((st.detours lambdas partials).insert name s') := by
  induction partials generalizing name s s' with
  | zero =>
    rw [detours_insert_zero, detours_insert_zero]
    exact .bind (.skip name) fun _ => .pure _
  | succ p ih =>
    rw [detours_insert_succ, detours_insert_succ]
    refine .source st.partials name fun found hfound => ?_
    cases found with
    | none => exact .pure _
    | some source =>
      have hkeys : Node.Undotted (Template.parse st.delimiters source).nodes := fun key hkey =>
        ⟨Template.keys_trimmed _ _ hkey, hp name source (hfound source rfl) key hkey⟩
      exact .parse _ _ _ (renderNodes_level hf (fun name _ _ hs => ih name hs) _ hs _ hkeys)

/-- A section on a flag, wherever a rendering of data comes to it, writes what its children
write when they are rendered in the frame around it, if none of their keys and of those of
partials has a dot in front. Both come to an end and leave the same behind but for what
the frame remembers. -/
theorem section_flag (hf : st.env.Plain)
    (hp : ∀ name source, st.partials.Gives name source →
      ∀ key ∈ Node.keysAll (Template.parse st.delimiters source).nodes, Key.Undotted key)
    {d : Delimiters} {source : String} {data : Value} (hd : data.Plain) {s : σ} {lib : κ}
    {x : Point σ κ} (hx : st.Reaches (.start st (Template.parse d source) data s lib) x)
    {name : String} {span body : Span} {cs ns : List Node}
    (hn : x.nodes = .sectionTag name false span body cs :: ns)
    (hcs : ∀ key ∈ Node.keysAll cs, Key.Undotted key) {v : Value} {w : World σ κ}
    (hl : Act.lookup st.env x.scope name x.world = .ok (v, w)) (hv : v.Flag) :
    ∃ out u u',
      st.renderNode (st.detours x.lambdas x.partials) x.source x.scope
        (.sectionTag name false span body cs) x.world = .ok (out, u) ∧
      st.renderNodes (st.detours x.lambdas x.partials) x.source x.scope cs x.world =
        .ok (out, u') ∧
      u.host = u'.host ∧ u.library = u'.library ∧ u.skipped = u'.skipped := by
  have hr := (Point.start_regular st d source hd s lib).reaches hf hx
  obtain ⟨r, memo, -, hplain, hlook, -⟩ := Act.lookup_plain st.env hr.plain hr.faithful name
  obtain ⟨r', hr', -⟩ := hf.valued name hplain
  have hw : w = { x.world with memo := memo } := by
    rw [hlook, hr'] at hl
    exact (Prod.mk.inj (Except.ok.inj hl)).2.symm
  have hlevel := renderNodes_level hf
    (fun name _ _ hs => insert_level hf hp x.lambdas x.partials name hs) x.source
    (hr.plain.level hv.bare) cs fun key hkey => ⟨hr.children hn key hkey, hcs key hkey⟩
  -- the frame of the flag remembers nothing yet, that around it what was looked up before
  have hstart : World.Level st.env (x.scope.push v) x.scope { x.world with memo := [] } x.world :=
    ⟨rfl, rfl, rfl, Scope.faithful_nil _ _, hr.faithful⟩
  obtain ⟨out, u, u', hsection, hchildren, hu⟩ := hlevel hstart
  refine ⟨out, { u with memo := memo }, u', ?_, hchildren, hu.host, hu.library, hu.skipped⟩
  rw [renderNode_section, Act.bind_of_ok hl, sectionText_frame _ _ _ _ _ _ hv.frame,
    if_pos hv.truthy, Act.inFrame_eq, hw, hsection]
  rfl

/-- A number, in a section on an object, around an array that holds texts and objects and a
partial in it. -/
theorem section_flag_nested :
    let find (name : String) := if name = "p" then some "{{l.1.k}}{{^n}}-{{/n}}" else none
    let st : Setting Unit Unit :=
      ⟨⟨.plain, Standard.formatters⟩, .fresh, find, .standard, 1000⟩
    let source := "{{#o}}{{#n}}{{#l}}{{>p}}{{x.length | upper}}{{/l}}{{/n}}{{/o}}"
    let cs : List Node := [.sectionTag "l" false ⟨12, 6⟩ ⟨18, 26⟩
      [.partialTag "p" ⟨18, 6⟩, .variableTag "x.length | upper" true ⟨24, 20⟩]]
    let data : Value := .object [("l", .array [.string "a", .object [("k", .bool false)]]),
      ("o", .object [("n", .int 3)]), ("x", .string "b")]
    let scope : Scope := ⟨.object [("n", .int 3)], [data]⟩
    let w : World Unit Unit := { host := (), library := () }
    ∃ out u u',
      st.renderNode (st.detours st.lambdaLimit partialLimit) source scope
        (.sectionTag "n" false ⟨6, 6⟩ ⟨12, 38⟩ cs) w = .ok (out, u) ∧
      st.renderNodes (st.detours st.lambdaLimit partialLimit) source scope cs w = .ok (out, u') ∧
      u.host = u'.host ∧ u.library = u'.library ∧ u.skipped = u'.skipped := by
  intro find st source cs data scope w
  have hnodes : (Template.parse .standard source).nodes =
      [.sectionTag "o" false ⟨0, 6⟩ ⟨6, 50⟩ [.sectionTag "n" false ⟨6, 6⟩ ⟨12, 38⟩ cs]] := by
    decide +kernel
  have hpartials : ∀ name source, st.partials.Gives name source →
      ∀ key ∈ Node.keysAll (Template.parse st.delimiters source).nodes, Key.Undotted key := by
    intro name source h
    obtain rfl := h.of_single
    decide +kernel
  have hdata : data.Plain := by
    simp [data, Value.Plain, Value.PlainItems, Value.PlainFields]
  have hdo : ∀ id, Value.object [("n", .int 3)] ≠ .getter id := fun id h => by cases h
  have houter : Act.lookup st.env ⟨data, []⟩ "o" w =
      .ok (.object [("n", .int 3)], { w with memo := [("o", some (.object [("n", .int 3)]))] }) :=
    Act.lookup_own st.env (by decide) (by decide) (by decide) rfl hdo rfl
  have hdn : ∀ id, Value.int 3 ≠ .getter id := fun id h => by cases h
  have hflag : Act.lookup st.env scope "n" w =
      .ok (.int 3, { w with memo := [("n", some (.int 3))] }) :=
    Act.lookup_own st.env (by decide) (by decide) (by decide) rfl hdn rfl
  have hobject : Value.Frame (.object [("n", .int 3)]) := trivial
  let x : Point Unit Unit := .start st (Template.parse .standard source) data () ()
  have hmove : st.Moves x { x with
      scope := scope, nodes := [.sectionTag "n" false ⟨6, 6⟩ ⟨12, 38⟩ cs], world := w } :=
    .frame (x := x) hnodes houter hobject rfl
  have hthree : Value.Flag (.int 3) := show (3 : Int64) ≠ 0 by decide
  exact section_flag (Standard.formatters_plain _) hpartials hdata (.single hmove) rfl
    (by decide +kernel) hflag hthree

/-- A lambda that a formatter makes can ask for the frame of the flag. -/
theorem section_flag_asked :
    let host : Host Unit := { Host.plain with
      lambda := fun _ _ s => .render "{{.}}" s fun out s => .answer (.string out) s }
    let st : Setting Unit Unit :=
      ⟨⟨host, .ofFunctions [("mk", fun _ _ => .lambda 0)]⟩, .fresh,
        .table fun _ => none, .standard, 1000⟩
    let source := "{{#b}}{{#x|mk}}{{/x|mk}}{{/b}}"
    let cs : List Node := [.sectionTag "x|mk" false ⟨6, 9⟩ ⟨15, 0⟩ []]
    let n : Node := .sectionTag "b" false ⟨0, 6⟩ ⟨6, 18⟩ cs
    let scope : Scope := ⟨.object [("b", .bool true)], []⟩
    let w : World Unit Unit := { host := (), library := () }
    (Template.parse .standard source).nodes = [n] ∧ scope.value.Plain ∧
      (∀ key ∈ Node.keysAll cs, Key.Undotted key) ∧
      (Act.lookup st.env scope "b").result w = .ok (.bool true) ∧
      (st.renderNode (st.detours st.lambdaLimit partialLimit) source scope n).result w =
        .ok "true" ∧
      (st.renderNodes (st.detours st.lambdaLimit partialLimit) source scope cs).result w =
        .ok "\x7b&quot;b&quot;:true\x7d" := by
  intro host st source cs n scope w
  have hd : ∀ id, Value.bool true ≠ .getter id := fun id h => by cases h
  have hflag : (Act.lookup st.env scope "b").result w = .ok (.bool true) := by
    rw [Act.result, Act.lookup_own st.env (by decide) (by decide) (by decide) rfl hd rfl]
    rfl
  refine ⟨by decide +kernel, by simp [scope, Value.Plain, Value.PlainFields], by decide +kernel,
    hflag, ?_, ?_⟩
  all_goals
    rw [detours]
    decide +kernel

end Setting

end Stencil
