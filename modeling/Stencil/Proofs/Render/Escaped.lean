import Stencil.Proofs.Render.Account
import Stencil.Proofs.Template.Nesting
import Stencil.Proofs.Text.Escape

/-!
# Data cannot inject markup

Every event of a rendering comes from a node of the template or of a partial that was
inserted. If none of those shows a value unescaped, then what is written is copied from
the templates or escaped, whatever the host does.
-/

set_option autoImplicit false

namespace Stencil

variable {σ κ : Type}

def Event.Of (partials : Partials σ) : Event → Node → Prop
  | .text t, n => ∃ span, n = .text t span
  | .value _ escaped, n => ∃ name span, n = .variableTag name escaped span
  | .lambda _, n => ∃ name span body cs, n = .sectionTag name false span body cs
  | .expanded source, n => ∃ name span, n = .partialTag name span ∧ partials.Gives name source
  | .skipped name, n => ∃ span, n = .partialTag name span

namespace Setting

def Reached (st : Setting σ κ) (ns : List Node) (es : List Event) (n : Node) : Prop :=
  n.Inside ns ∨
    ∃ source, .expanded source ∈ es ∧ n.Inside (Template.parse st.delimiters source).nodes

theorem Reached.mono {st : Setting σ κ} {ns ms : List Node} {es fs : List Event} {n : Node}
    (h : st.Reached ns es n) (hns : n.Inside ns → n.Inside ms) (hes : ∀ e ∈ es, e ∈ fs) :
    st.Reached ms fs n := by
  rcases h with h | ⟨source, hs, h⟩
  · exact .inl (hns h)
  · exact .inr ⟨source, hes _ hs, h⟩

def Accounts (st : Setting σ κ) (ns : List Node) (a : Tale σ κ) : Prop :=
  ∀ w, ∀ e ∈ (a w).1, ∃ n, e.Of st.partials n ∧ st.Reached ns (a w).1 n

namespace Accounts

variable {st : Setting σ κ} {ns ms : List Node}

theorem nothing : st.Accounts ns (.tell []) := fun _ _ he => absurd he List.not_mem_nil

theorem single {e : Event} {n : Node} (h : e.Of st.partials n) : st.Accounts [n] (.tell [e]) := by
  intro w f hf
  obtain rfl : f = e := List.mem_singleton.1 hf
  exact ⟨n, h, .inl (.here (List.mem_singleton_self n))⟩

theorem mono {a : Tale σ κ} (h : st.Accounts ns a) (hns : ∀ n : Node, n.Inside ns → n.Inside ms) :
    st.Accounts ms a := by
  intro w e he
  obtain ⟨n, hn, hr⟩ := h w e he
  exact ⟨n, hn, hr.mono (hns n) fun _ h => h⟩

theorem andThen {a b : Tale σ κ} (ha : st.Accounts ns a) (hb : st.Accounts ns b) :
    st.Accounts ns (a.andThen b) := by
  intro w e he
  rcases List.mem_append.1 he with he | he
  · obtain ⟨n, hn, hr⟩ := ha w e he
    exact ⟨n, hn, hr.mono id fun _ h => List.mem_append_left _ h⟩
  · obtain ⟨n, hn, hr⟩ := hb _ e he
    exact ⟨n, hn, hr.mono id fun _ h => List.mem_append_right _ h⟩

theorem look {env : Env σ} {scope : Scope} {key : String} {next : Value → Tale σ κ}
    (h : ∀ v, st.Accounts ns (next v)) : st.Accounts ns (.look env scope key next) :=
  fun _ => h _ _

theorem ask {name : String} {next : Option String → Tale σ κ}
    (h : ∀ found, (∀ source, found = some source → st.partials.Gives name source) →
      st.Accounts ns (next found)) : st.Accounts ns (.ask st.partials name next) :=
  fun w => h _ (fun _ hs => ⟨w.host, hs⟩) _

theorem inFrame {a : Tale σ κ} (h : st.Accounts ns a) : st.Accounts ns a.inFrame :=
  fun _ => h _

theorem each {a : Value → Tale σ κ} (h : ∀ v, st.Accounts ns (a v)) (vs : List Value) :
    st.Accounts ns (.each a vs) := by
  induction vs with
  | nil => exact nothing
  | cons v vs ih => exact andThen (h v) ih

/-- The events of a partial come from its own nodes, or from those of partials in it. -/
theorem expand {lib : Library κ} {name source : String} {span : Span}
    (hp : st.partials.Gives name source) {next : List Node → Tale σ κ}
    (h : st.Accounts (Template.parse st.delimiters source).nodes
      (next (Template.parse st.delimiters source).nodes)) :
    st.Accounts [.partialTag name span] (.expand lib st.delimiters source next) := by
  intro w e he
  have ht := lib.faithful st.delimiters source w.library
  simp only [Tale.expand, ht] at he ⊢
  rcases List.mem_cons.1 he with rfl | he
  · exact ⟨.partialTag name span, ⟨name, span, rfl, hp⟩, .inl (.here (List.mem_singleton_self _))⟩
  · obtain ⟨n, hn, hr⟩ := h _ e he
    refine ⟨n, hn, .inr ?_⟩
    rcases hr with hr | ⟨inner, hs, hr⟩
    · exact ⟨source, List.mem_cons_self .., hr⟩
    · exact ⟨inner, List.mem_cons_of_mem _ hs, hr⟩

end Accounts

variable {st : Setting σ κ}

mutual

theorem tellNode_accounts {insert : String → Scope → Tale σ κ}
    (hi : ∀ name span scope, st.Accounts [.partialTag name span] (insert name scope))
    (scope : Scope) (n : Node) : st.Accounts [n] (st.tellNode insert scope n) := by
  cases n with
  | text t span => exact .single ⟨span, rfl⟩
  | comment t span => exact .nothing
  | variableTag name escaped span => exact .look fun v => .single ⟨name, span, rfl⟩
  | partialTag name span => exact hi name span scope
  | sectionTag name inverted span body cs =>
    have hcs : ∀ scope, st.Accounts [.sectionTag name inverted span body cs]
        (st.tellNodes insert scope cs) := fun scope =>
      (tellNodes_accounts hi scope cs).mono fun _ h => .deeper (List.mem_singleton_self _) h
    cases inverted with
    | true =>
      refine .look fun v => ?_
      split
      · exact hcs scope
      · exact .nothing
    | false =>
      rw [tellNode_section]
      refine .look fun v => ?_
      cases v.branch with
      | lambda id => exact .single ⟨name, span, body, cs, rfl⟩
      | array items => exact .each (fun v => .inFrame (hcs _)) items
      | frame hv =>
        rw [tellSection_frame _ _ _ _ hv]
        split
        · exact .inFrame (hcs _)
        · exact .nothing

theorem tellNodes_accounts {insert : String → Scope → Tale σ κ}
    (hi : ∀ name span scope, st.Accounts [.partialTag name span] (insert name scope))
    (scope : Scope) (ns : List Node) : st.Accounts ns (st.tellNodes insert scope ns) := by
  cases ns with
  | nil => exact .nothing
  | cons n ns =>
    have hn : st.Accounts ([n] ++ ns) (st.tellNode insert scope n) :=
      (tellNode_accounts hi scope n).mono fun _ h => Node.Inside.append.2 (.inl h)
    have hns : st.Accounts ([n] ++ ns) (st.tellNodes insert scope ns) :=
      (tellNodes_accounts hi scope ns).mono fun _ h => Node.Inside.append.2 (.inr h)
    exact hn.andThen hns

end

theorem tellPartial_accounts (budget : Nat) (name : String) (span : Span) (scope : Scope) :
    st.Accounts [.partialTag name span] (st.tellPartial budget name scope) := by
  induction budget generalizing name span scope with
  | zero =>
    have hskip : Event.Of st.partials (.skipped name) (.partialTag name span) := ⟨span, rfl⟩
    exact fun w => Accounts.single hskip w
  | succ b ih =>
    rw [tellPartial]
    refine .ask fun found hfound => ?_
    cases found with
    | none => exact .nothing
    | some source => exact .expand (hfound source rfl) (tellNodes_accounts ih scope _)

theorem account_accounts (t : Template) (data : Value) :
    st.Accounts t.nodes (st.account t data) :=
  tellNodes_accounts (tellPartial_accounts partialLimit) ⟨data, []⟩ t.nodes

end Setting

namespace Event

def CopiedAt (es : List Event) (before : List Char) : Prop :=
  ∃ es₁ t es₂ a c b, es = es₁ ++ .text t :: es₂ ∧ t.toList = a ++ c :: b ∧
    before = (written es₁).toList ++ a

/-- Every character of what is written stands in what one event shows. -/
theorem written_split {es : List Event} {before behind : List Char} {c : Char}
    (h : (written es).toList = before ++ c :: behind) :
    ∃ es₁ e es₂ a b, es = es₁ ++ e :: es₂ ∧ e.shown.toList = a ++ c :: b ∧
      before = (written es₁).toList ++ a ∧ behind = b ++ (written es₂).toList := by
  induction es generalizing before with
  | nil => simp at h
  | cons e es ih =>
    rw [written_cons, String.toList_append] at h
    rcases List.append_eq_append_iff.1 h with ⟨mid, rfl, hes⟩ | ⟨mid, he, hmid⟩
    · obtain ⟨es₁, f, es₂, a, b, rfl, hf, rfl, hb⟩ := ih hes
      exact ⟨e :: es₁, f, es₂, a, b, rfl, hf, by simp, hb⟩
    · cases mid with
      | nil =>
        obtain ⟨es₁, f, es₂, a, b, rfl, hf, ha, hb⟩ := ih (hmid.symm.trans (List.nil_append _).symm)
        rw [List.append_nil] at he
        exact ⟨e :: es₁, f, es₂, a, b, rfl, hf, by simp [he, ← ha], hb⟩
      | cons x mid =>
        obtain ⟨rfl, rfl⟩ := List.cons.inj hmid
        exact ⟨[], e, es, before, mid, rfl, he, rfl, rfl⟩

theorem shown_escaped (v : Value) : ∃ s, Setting.shown true v = Text.escapeHtml s := by
  cases v with
  | null | lambda => exact ⟨"", rfl⟩
  | _ => exact ⟨_, rfl⟩

end Event

namespace Setting

variable {st : Setting σ κ}

/-- What a rendering that meets no lambda and reaches no unescaped variable writes is, in
the order of its events, copied from texts of the template and of the partials it
inserts, or escaped. So a character of markup that is in none of these texts is not
written, and an ampersand that is not copied from one begins an entity. -/
theorem output_escaped {t : Template} {data : Value} {w v : World σ κ} {es : List Event}
    (ha : st.account t data w = (es, v)) (hm : Event.Mute es)
    (he : ∀ name span, ¬ st.Reached t.nodes es (.variableTag name false span)) :
    st.render t data w = .ok (Event.written es, v) ∧
      (∀ e ∈ es, (∃ x span, e = .text x ∧ st.Reached t.nodes es (.text x span)) ∨
        ∃ s, e.shown = Text.escapeHtml s) ∧
      (∀ c ∈ Text.markup, (∀ x span, st.Reached t.nodes es (.text x span) → c ∉ x.toList) →
        c ∉ (Event.written es).toList) ∧
      ∀ before behind, (Event.written es).toList = before ++ '&' :: behind →
        Event.CopiedAt es before ∨ Text.EntityHere ('&' :: behind) := by
  have hpieces : ∀ e ∈ es, (∃ x span, e = .text x ∧ st.Reached t.nodes es (.text x span)) ∨
      ∃ s, e.shown = Text.escapeHtml s := by
    intro e hes
    have hall : st.Accounts t.nodes (st.account t data) := account_accounts t data
    have hnode := hall w e
    rw [ha] at hnode
    obtain ⟨n, hn, hr⟩ := hnode hes
    cases e with
    | text x =>
      obtain ⟨span, rfl⟩ := hn
      exact .inl ⟨x, span, rfl, hr⟩
    | value v escaped =>
      obtain ⟨name, span, rfl⟩ := hn
      cases escaped with
      | true => exact .inr (Event.shown_escaped v)
      | false => exact absurd hr (he name span)
    | _ => exact .inr ⟨"", rfl⟩
  refine ⟨?_, hpieces, fun c hc hfree hmem => ?_, fun before behind h => ?_⟩
  · have hrun : (st.render t data).Follows (st.account t data) := render_follows t data
    have hw := hrun w
    rw [ha] at hw
    exact hw hm
  · obtain ⟨before, behind, h⟩ := List.append_of_mem hmem
    obtain ⟨es₁, e, es₂, a, b, rfl, hshown, -, -⟩ := Event.written_split h
    rcases hpieces e (by simp) with ⟨x, span, rfl, hr⟩ | ⟨s, hs⟩
    · exact hfree x span hr (show c ∈ (Event.text x).shown.toList by rw [hshown]; simp)
    · refine Text.escape_free hc s.toList ?_
      rw [hs, Text.escapeHtml, String.toList_ofList] at hshown
      rw [hshown]
      simp
  · obtain ⟨es₁, e, es₂, a, b, rfl, hshown, rfl, rfl⟩ := Event.written_split h
    rcases hpieces e (by simp) with ⟨x, span, rfl, -⟩ | ⟨s, hs⟩
    · exact .inl ⟨es₁, x, es₂, a, '&', b, rfl, hshown, rfl⟩
    · rw [hs, Text.escapeHtml, String.toList_ofList] at hshown
      obtain ⟨entity, hentity, hprefix⟩ := Text.escape_ampersand hshown
      exact .inr ⟨entity, hentity, hprefix.trans (List.prefix_append ('&' :: b) _)⟩

/-- An ampersand of a template beside one of the data, in a partial inserted twice. -/
theorem output_escaped_partial :
    let source := "<i>{{x}}</i>"
    let st : Setting Unit Unit :=
      ⟨⟨.plain, .empty⟩, .fresh, .table fun name => if name = "p" then some source else none,
        .standard, 1000⟩
    let t := Template.parse .standard "{{#l}}{{>p}} & {{/l}}"
    let data : Value := .object [("l", .array [.object [("x", .string "a=b&c")],
      .object [("x", .string "\"")]])]
    let w : World Unit Unit := { host := (), library := () }
    let out := "<i>a&#x3D;b&amp;c</i> & <i>&quot;</i> & "
    (∃ v, st.render t data w = .ok (out, v)) ∧ '=' ∉ out.toList ∧
      ∀ before behind, out.toList = before ++ '&' :: behind →
        Event.CopiedAt (st.account t data w).1 before ∨ Text.EntityHere ('&' :: behind) := by
  intro source st t data w out
  have hnodes : t.nodes = [.sectionTag "l" false ⟨0, 6⟩ ⟨6, 9⟩
      [.partialTag "p" ⟨6, 6⟩, .text " & " ⟨12, 3⟩]] := by decide +kernel
  have hinner : (Template.parse .standard source).nodes =
      [.text "<i>" ⟨0, 3⟩, .variableTag "x" true ⟨3, 5⟩, .text "</i>" ⟨8, 4⟩] := by decide +kernel
  have hout : Event.written (st.account t data w).1 = out := by decide +kernel
  have hevents : ∀ e ∈ (st.account t data w).1, (match e with
      | .expanded s => s == source
      | _ => true) = true := List.all_eq_true.1 (by decide +kernel)
  have hreached : ∀ n, st.Reached t.nodes (st.account t data w).1 n →
      n.Inside t.nodes ∨ n.Inside (Template.parse .standard source).nodes := by
    rintro n (hn | ⟨s, hs, hn⟩)
    · exact .inl hn
    · obtain rfl : s = source := by simpa using hevents _ hs
      exact .inr hn
  have hescaped : ∀ name span,
      ¬ st.Reached t.nodes (st.account t data w).1 (.variableTag name false span) := by
    intro name span h
    have h := hreached _ h
    rw [hnodes, hinner] at h
    simp [Node.Inside.cons, Node.children, Node.Inside.nil] at h
  have hequal : ∀ x span, st.Reached t.nodes (st.account t data w).1 (.text x span) →
      '=' ∉ x.toList := by
    intro x span h
    have h := hreached _ h
    rw [hnodes, hinner] at h
    simp [Node.Inside.cons, Node.children, Node.Inside.nil] at h
    rcases h with ⟨rfl, -⟩ | ⟨rfl, -⟩ | ⟨rfl, -⟩ <;> decide
  have haccount : st.account t data w = ((st.account t data w).1, (st.account t data w).2) := rfl
  obtain ⟨hrender, -, hmarkup, hentities⟩ :=
    output_escaped haccount (by decide +kernel) hescaped
  rw [hout] at hrender hmarkup hentities
  exact ⟨⟨_, hrender⟩, hmarkup '=' (by decide) hequal, hentities⟩

end Setting

end Stencil
