import Stencil.Proofs.Lookup.Wrapped
import Stencil.Proofs.Render.Likeness
import Stencil.Proofs.Template.Trimmed

/-!
# Rendering wrapped data

With simple fields and the standard formatters it cannot be told from the text whether
data was wrapped before it was rendered, nor how deep.
-/

set_option autoImplicit false

namespace Stencil

variable {σ κ : Type}

namespace Node

mutual

theorem keys_preorder (n : Node) {key : String} (h : key ∈ n.keys) :
    ∃ t ∈ n.preorder, t.isText = false ∧ t.value = key := by
  cases n with
  | variableTag name escaped span =>
    obtain rfl := List.mem_singleton.1 h
    cases escaped <;> exact ⟨_, List.mem_singleton_self _, rfl, rfl⟩
  | sectionTag name inverted span body cs =>
    rw [preorder]
    rcases List.mem_cons.1 h with rfl | h
    · cases inverted <;> exact ⟨_, List.mem_cons_self .., rfl, rfl⟩
    · obtain ⟨t, ht, hk⟩ := keysAll_preorder cs h
      exact ⟨t, List.mem_cons_of_mem _ ht, hk⟩
  | text t span => cases h
  | partialTag name span => cases h
  | comment t span => cases h

theorem keysAll_preorder (ns : List Node) {key : String} (h : key ∈ keysAll ns) :
    ∃ t ∈ preorderAll ns, t.isText = false ∧ t.value = key := by
  cases ns with
  | nil => cases h
  | cons n ns =>
    rw [preorderAll]
    rcases List.mem_append.1 h with h | h
    · obtain ⟨t, ht, hk⟩ := keys_preorder n h
      exact ⟨t, List.mem_append_left _ ht, hk⟩
    · obtain ⟨t, ht, hk⟩ := keysAll_preorder ns h
      exact ⟨t, List.mem_append_right _ ht, hk⟩

end

end Node

theorem Template.keys_trimmed (d : Delimiters) (source : String) {key : String}
    (h : key ∈ Node.keysAll (parse d source).nodes) : Text.trim key.toList = key.toList := by
  obtain ⟨t, ht, htext, rfl⟩ := Node.keysAll_preorder _ h
  exact nodes_trimmed d source ht htext

theorem Setting.shown_eq (escaped : Bool) {v : Value} (h : ∀ id, v ≠ .lambda id) :
    shown escaped v =
      if v.isNull then "" else if escaped then Text.escapeHtml v.display else v.display := by
  cases v with
  | lambda id => exact absurd rfl (h id)
  | _ => rfl

def Value.wrappedLikeness (κ : Type) : Likeness κ κ :=
  ⟨Value.WrappedAs, Value.WrappedAs, (· = ·), False⟩

theorem Value.wrappedLikeness_sound (κ : Type) : (Value.wrappedLikeness κ).Sound where
  framed h := h
  shown {v n} h escaped := by
    have hv : ∀ id, v ≠ .lambda id := by
      rintro id rfl
      exact h.plain
    have hn : ∀ id, n ≠ .lambda id := by
      rintro id rfl
      exact h.plain_wrapped
    rw [Setting.shown_eq escaped hv, Setting.shown_eq escaped hn, h.isNull, h.display]
  blank h := by rw [h.eq, Value.blank_unwrapped]
  sections {v n} h := by
    have ht := h.truthy
    have he := h.eq
    subst he
    cases n with
    | lambda id => exact h.plain.elim
    | array items => exact .array h.items
    | _ => exact .frame trivial trivial ht h

namespace Setting

/-- Data rendered and wrapped data rendered, with a template whose fields are simple, as
those of all partials are, and with the standard formatters: both renderings come to an
end and give the same text, to whatever depth the data was wrapped and by whomever. -/
theorem render_wrapped (st : Setting σ κ) (hf : st.env.formatters = Standard.formatters)
    {d : Delimiters} {source : String}
    (ht : ∀ key ∈ Node.keysAll (Template.parse d source).nodes,
      Key.Simple (Key.parse key.toList).field)
    (hp : ∀ name source, st.partials.Gives name source →
      ∀ key ∈ Node.keysAll (Template.parse st.delimiters source).nodes,
        Key.Simple (Key.parse key.toList).field)
    {data : Value} (hd : data.Plain) (w : Wrapping) (depth : Nat) (s : σ) (k : κ) :
    ∃ out v v', st.render (.parse d source) data { host := s, library := k } = .ok (out, v) ∧
      st.render (.parse d source) (w.wrap depth data) { host := s, library := k } = .ok (out, v') ∧
      v.host = v'.host ∧ v.library = v'.library ∧ v.skipped = v'.skipped := by
  have hst : st.Alike (Value.wrappedLikeness κ) Key.Readable st := by
    refine ⟨rfl, rfl, rfl, rfl, fun d source k k' hk => ?_, fun key hkey scope scope' hs => ?_⟩
    · obtain rfl : k = k' := hk
      rfl
    · intro u u' hu
      obtain ⟨v, n, m, m', hv, hn, hvn, hm⟩ :=
        Scope.lookup_wrapped st.env hf hkey ⟨hs.value, hs.outer⟩ hu.memo u.host
      rw [Act.lookup, Act.lookup, hv, ← hu.host, hn]
      exact .ok ⟨hvn, rfl, hu.library, hm, hu.skipped⟩
  have hreads : st.Reads Key.Readable (Value.wrappedLikeness κ).lambdas :=
    ⟨fun name source hname key hkey => ⟨Template.keys_trimmed _ _ hkey, hp name source hname key hkey⟩,
      fun h => h.elim⟩
  have hkeys : ∀ key ∈ Node.keysAll (Template.parse d source).nodes, Key.Readable key :=
    fun key hkey => ⟨Template.keys_trimmed d source hkey, ht key hkey⟩
  have halike : (Value.wrappedLikeness κ).Acts (· = ·) (st.render (.parse d source) data)
      (st.render (.parse d source) (w.wrap depth data)) :=
    render_alike (Value.wrappedLikeness_sound κ) hst hreads hkeys (w.wrappedAs depth hd)
  have hstart : (Value.wrappedLikeness κ).Worlds { host := s, library := k }
      { host := s, library := k } := ⟨rfl, rfl, .nil, rfl⟩
  have hrun := halike hstart
  generalize st.render (.parse d source) data _ = x at hrun
  generalize st.render (.parse d source) (w.wrap depth data) _ = y at hrun
  cases hrun with
  | @ok a b hr => exact ⟨a.1, a.2, b.2, rfl, by rw [hr.1], hr.2.host, hr.2.library, hr.2.skipped⟩
  | error f hfault => exact hfault.elim

/-- A partial that goes down a path inside of an array, and a node shown whole. -/
theorem render_wrapped_nested :
    let find (name : String) := if name = "p" then some "{{a.b | upper}}{{.n}}" else none
    let st : Setting Unit Unit :=
      ⟨⟨.plain, Standard.formatters⟩, .fresh, find, .standard, 1000⟩
    let t := Template.parse .standard "{{#l}}{{>p}}{{/l}}{{l | first}}"
    let data : Value := .object [("l", .array [.object [("a", .object [("b", .string "x")])]]),
      ("n", .int 7)]
    ∃ out v v', st.render t data { host := (), library := () } = .ok (out, v) ∧
      st.render t (Wrapping.wrap ⟨0, .other 5⟩ 3 data) { host := (), library := () } =
        .ok (out, v') ∧
      v.host = v'.host ∧ v.library = v'.library ∧ v.skipped = v'.skipped := by
  intro find st t data
  have hpartials : ∀ name source, st.partials.Gives name source →
      ∀ key ∈ Node.keysAll (Template.parse st.delimiters source).nodes,
        Key.Simple (Key.parse key.toList).field := by
    intro name source h
    obtain rfl := h.of_single
    decide +kernel
  exact render_wrapped st rfl (by decide +kernel) hpartials
    (by simp [data, Value.Plain, Value.PlainItems, Value.PlainFields]) ⟨0, .other 5⟩ 3 () ()

end Setting

end Stencil
