import Stencil.Proofs.Template.Nesting
import Stencil.Proofs.Template.Squash
import Mathlib.Data.List.Nodup

/-!
# Nesting accounts for every tag

Read in pre-order, the tree of a template is its token stream without the tags
that stand for no node. A close tag ends the innermost open section of its name
or is a problem, and a section that is not ended by its own name is a problem
too; each of them once, for no two tokens have the same span.
-/

set_option autoImplicit false

namespace Stencil

open OpenSection

namespace Node

mutual

def preorder : Node → List Token
  | text s span => [⟨.text, s, span⟩]
  | variableTag name escaped span => [⟨if escaped then .name else .unescaped, name, span⟩]
  | sectionTag name inverted span _ cs =>
    ⟨if inverted then .invertedStart else .sectionStart, name, span⟩ :: preorderAll cs
  | partialTag name span => [⟨.partialTag, name, span⟩]
  | comment content span => [⟨.comment, content, span⟩]

def preorderAll : List Node → List Token
  | [] => []
  | n :: ns => preorder n ++ preorderAll ns

end

theorem preorderAll_append (ns ms : List Node) :
    preorderAll (ns ++ ms) = preorderAll ns ++ preorderAll ms := by
  induction ns with
  | nil => rfl
  | cons n ns ih => simp [preorderAll, ih]

end Node

theorem Node.Inside.of_preorder {t : Token} (ht : t.kind.opensSection) :
    ∀ {ns : List Node}, t ∈ Node.preorderAll ns →
      ∃ name inverted span body cs, (Node.sectionTag name inverted span body cs).Inside ns ∧
        t = tag ⟨name, inverted, span, cs⟩
  | n :: ns, h => by
    rcases List.mem_append.1 (by simpa [Node.preorderAll] using h) with h | h
    · cases n with
      | sectionTag name inverted span body cs =>
        rcases List.mem_cons.1 (by simpa [Node.preorder] using h) with rfl | h
        · exact ⟨name, inverted, span, body, cs, .here (by simp), rfl⟩
        · obtain ⟨name', i', s', b', cs', hx, he⟩ := of_preorder ht h
          exact ⟨name', i', s', b', cs', .deeper List.mem_cons_self hx, he⟩
      | text s span => cases List.mem_singleton.1 h; cases ht
      | variableTag name escaped span =>
        cases List.mem_singleton.1 h
        cases escaped <;> cases ht
      | partialTag name span => cases List.mem_singleton.1 h; cases ht
      | comment content span => cases List.mem_singleton.1 h; cases ht
    · obtain ⟨name, i, s, b, cs, hx, he⟩ := of_preorder ht h
      have hn : (Node.sectionTag name i s b cs).Inside ([n] ++ ns) := Node.Inside.append.2 (.inr hx)
      exact ⟨name, i, s, b, cs, hn, he⟩

def Token.hasNode (t : Token) : Bool := t.kind != .close && t.kind != .setDelimiters

theorem Token.hasNode_opens {t : Token} (h : t.kind.opensSection) : t.hasNode = true := by
  obtain ⟨kind, value, span⟩ := t
  cases kind <;> first | rfl | cases h

theorem Token.leaves_preorder {t : Token} (h : ¬ t.kind.opensSection) :
    Node.preorderAll t.leaves = [t].filter hasNode := by
  obtain ⟨kind, value, span⟩ := t
  cases kind <;> first | rfl | exact absurd rfl h

def Token.unclosed (t : Token) : Problem := .unclosedSection t.value t.span

def Token.unmatched (t : Token) : Problem := .unmatchedClose t.value t.span

namespace Nesting

def preorder (n : Nesting) : List Token :=
  Node.preorderAll n.root ++ n.opened.reverse.flatMap fun o => o.tag :: Node.preorderAll o.children

theorem insertAll_preorder (n : Nesting) (ns : List Node) :
    (n.insertAll ns).preorder = n.preorder ++ Node.preorderAll ns := by
  obtain ⟨_ | ⟨o, os⟩, root, problems⟩ := n <;>
    simp [insertAll, preorder, Node.preorderAll_append, grow_tag]

theorem collapse_preorder (stop : Nat) (ns : List Node) (os : List OpenSection) :
    Node.preorderAll (collapse stop ns os) =
      (os.reverse.flatMap fun o => o.tag :: Node.preorderAll o.children) ++
        Node.preorderAll ns := by
  induction os generalizing ns with
  | nil => simp [collapse]
  | cons o os ih =>
    have ho : Node.preorderAll [(o.grow ns).finish stop] =
        o.tag :: (Node.preorderAll o.children ++ Node.preorderAll ns) := by
      simp [OpenSection.finish, grow, Node.preorderAll, Node.preorder, Node.preorderAll_append, tag]
    rw [collapse, ih, ho]
    simp

/-- A token adds itself to the tokens of the tree, if it has a node. -/
theorem step_preorder (n : Nesting) (t : Token) :
    (step n t).preorder = n.preorder ++ [t].filter Token.hasNode := by
  by_cases hk : t.kind.opensSection
  · have hf := Token.hasNode_opens hk
    rw [step_opens _ hk]
    simp [preorder, hf, tag_ofTag hk]
    rfl
  by_cases hc : t.kind = .close
  · have hf : t.hasNode = false := by simp [Token.hasNode, hc]
    rw [step_close _ hc]
    rcases split_named OpenSection.name t.value n.opened with hn | ⟨inner, m, outer, hl, hi, hm⟩
    · rw [close_unmatched hn]
      simp [hf, record, preorder]
    · rw [close_matched hl hi hm, insertAll_preorder, collapse_preorder]
      simp [preorder, hl, hf, Node.preorderAll]
  · rw [step_adds _ hk hc, insertAll_preorder, Token.leaves_preorder hk]

theorem run_preorder (ts : List Token) : (run ts).preorder = ts.filter Token.hasNode := by
  induction ts using List.reverseRecOn with
  | nil => rfl
  | append_singleton ts t ih => rw [run_snoc, step_preorder, ih, List.filter_append]

/-- The finished tree has a node for every token that stands for one, in order. -/
theorem finish_preorder (ts : List Token) (stop : Nat) :
    Node.preorderAll ((run ts).finish stop).root = ts.filter Token.hasNode := by
  rw [finish_eq, Node.preorderAll_append, collapse_preorder, ← run_preorder]
  simp [preorder, Node.preorderAll]

/-! ## Problems -/

theorem insertAll_problems (n : Nesting) (ns : List Node) :
    (n.insertAll ns).problems = n.problems := by
  obtain ⟨_ | ⟨o, os⟩, root, problems⟩ := n <;> rfl

theorem opened_of_tags {ts inner outer : List Token} {t : Token}
    (h : Token.openAfter ts = inner ++ t :: outer) :
    ∃ i o r, (run ts).opened = i ++ o :: r ∧ i.map tag = inner ∧ o.tag = t ∧ r.map tag = outer := by
  rw [← run_tags] at h
  obtain ⟨i, l, hl, hi, hr⟩ := List.map_eq_append_iff.1 h
  obtain ⟨o, r, rfl, ho, hr⟩ := List.map_eq_cons_iff.1 hr
  exact ⟨i, o, r, hl, hi, ho, hr⟩

theorem run_problems_other {ts : List Token} {t : Token} (h : t.kind ≠ .close) :
    (run (ts ++ [t])).problems = (run ts).problems := by
  rw [run_snoc]
  by_cases hk : t.kind.opensSection
  · rw [step_opens _ hk]
  · rw [step_adds _ hk h, insertAll_problems]

/-- A close tag complains of the sections it ends inside that of its name. -/
theorem run_problems_matched {ts inner outer : List Token} {c m : Token} (hc : c.kind = .close)
    (h : Token.openAfter ts = inner ++ m :: outer) (hi : ∀ x ∈ inner, x.value ≠ c.value)
    (hm : m.value = c.value) :
    (run (ts ++ [c])).problems = (run ts).problems ++ inner.map Token.unclosed := by
  obtain ⟨i, o, r, hl, rfl, rfl, rfl⟩ := opened_of_tags h
  rw [run_snoc, step_close _ hc, close_matched hl (by simpa [tag] using hi) hm,
    insertAll_problems, List.map_map]
  rfl

theorem run_problems_unmatched {ts : List Token} {c : Token} (hc : c.kind = .close)
    (h : ∀ x ∈ Token.openAfter ts, x.value ≠ c.value) :
    (run (ts ++ [c])).problems = (run ts).problems ++ [c.unmatched] := by
  rw [← run_tags] at h
  rw [run_snoc, step_close _ hc, close_unmatched (by simpa [tag] using h)]
  rfl

theorem finish_problems (ts : List Token) (stop : Nat) :
    ((run ts).finish stop).problems =
      (run ts).problems ++ (Token.openAfter ts).map Token.unclosed := by
  rw [finish_eq, ← run_tags, List.map_map]
  rfl

end Nesting

namespace Token

theorem openBehind_suffix (os : List Token) (t : Token) : openBehind os t <:+ t :: os := by
  by_cases hk : t.kind.opensSection
  · rw [openBehind_opens hk]
  by_cases hc : t.kind = .close
  · rcases split_named value t.value os with hn | ⟨inner, m, outer, rfl, hi, hm⟩
    · rw [openBehind_unmatched hc hn]
      exact List.suffix_cons _ _
    · rw [openBehind_matched hc rfl hi hm]
      exact ⟨t :: (inner ++ [m]), by simp⟩
  · rw [openBehind_other hk hc]
    exact List.suffix_cons _ _

/-- A close tag that ends a section or one around it leaves what is around both. -/
theorem openBehind_inside {os inner outer : List Token} {t c : Token} (hc : c.kind = .close)
    (ho : os = inner ++ t :: outer) (hi : ∀ x ∈ inner, x.value ≠ c.value)
    (hm : ∃ x ∈ t :: outer, x.value = c.value) : openBehind os c <:+ outer := by
  rcases split_named value c.value (t :: outer) with hn | ⟨i, m, r, hl, hi', hmv⟩
  · obtain ⟨x, hx, hxv⟩ := hm
    exact absurd hxv (hn x hx)
  · have hos : os = (inner ++ i) ++ m :: r := by rw [ho, hl]; simp
    rw [openBehind_matched hc hos ?_ hmv]
    · cases i with
      | nil =>
        obtain ⟨-, rfl⟩ := List.cons.inj hl
        exact List.suffix_refl _
      | cons y i =>
        obtain ⟨-, rfl⟩ := List.cons.inj hl
        exact ⟨i ++ [m], by simp⟩
    · intro x hx
      rcases List.mem_append.1 hx with hx | hx
      · exact hi x hx
      · exact hi' x hx

theorem openAfter_sublist (ts : List Token) : (openAfter ts).Sublist ts.reverse := by
  induction ts using List.reverseRecOn with
  | nil => exact .slnil
  | append_singleton ts t ih =>
    rw [openAfter_snoc, List.reverse_append]
    exact (openBehind_suffix _ t).sublist.trans (ih.cons_cons t)

theorem mem_of_openAfter {ts : List Token} {t : Token} (h : t ∈ openAfter ts) : t ∈ ts :=
  List.mem_reverse.1 ((openAfter_sublist ts).subset h)

theorem openAfter_opens {ts : List Token} {t : Token} (h : t ∈ openAfter ts) :
    t.kind.opensSection := by
  rw [← Nesting.run_tags] at h
  obtain ⟨o, -, rfl⟩ := List.mem_map.1 h
  exact o.tag_opens

theorem unmatched_span (t : Token) : t.unmatched.span = t.span := rfl

theorem count_map_unclosed {os : List Token} {p : Problem} (h : ∀ o ∈ os, o.span ≠ p.span) :
    (os.map unclosed).count p = 0 := by
  refine List.count_eq_zero.2 fun hp => ?_
  obtain ⟨o, ho, rfl⟩ := List.mem_map.1 hp
  exact h o ho rfl

/-- Only a token of its span and the sections open before give a problem. -/
theorem run_silent {ts us : List Token} {s : Span} (ho : ∀ o ∈ openAfter ts, o.span ≠ s)
    (hu : ∀ u ∈ us, u.span ≠ s) :
    (∀ o ∈ openAfter (ts ++ us), o.span ≠ s) ∧
      ∀ p : Problem, p.span = s →
        (Nesting.run (ts ++ us)).problems.count p = (Nesting.run ts).problems.count p := by
  induction us using List.reverseRecOn with
  | nil => simpa using ho
  | append_singleton us u ih =>
    obtain ⟨h1, h2⟩ := ih fun u hu' => hu u (by simp [hu'])
    have hus : u.span ≠ s := hu u (by simp)
    rw [← List.append_assoc]
    refine ⟨fun o hm => ?_, fun p hp => ?_⟩
    · rw [openAfter_snoc] at hm
      rcases List.mem_cons.1 ((openBehind_suffix _ u).subset hm) with rfl | hm
      · exact hus
      · exact h1 o hm
    · rw [← h2 p hp]
      by_cases hc : u.kind = .close
      · rcases split_named value u.value (openAfter (ts ++ us)) with
          hn | ⟨inner, m, outer, hl, hi, hm⟩
        · rw [Nesting.run_problems_unmatched hc hn, List.count_append, List.count_singleton]
          have : u.unmatched ≠ p := fun he => hus (by rw [← hp, ← he, unmatched_span])
          simp [this]
        · rw [Nesting.run_problems_matched hc hl hi hm, List.count_append, count_map_unclosed]
          · rfl
          · intro o hom
            rw [hp]
            exact h1 o (by rw [hl]; exact List.mem_append_left _ hom)
      · rw [Nesting.run_problems_other hc]

theorem count_none {us : List Token} {p : Problem} (hu : ∀ u ∈ us, u.span ≠ p.span) :
    (Nesting.run us).problems.count p = 0 := by
  have hn : ∀ o ∈ openAfter [], o.span ≠ p.span := by simp [openAfter]
  exact (run_silent hn hu).2 p rfl

/-- Later tokens do not report a section or a close tag that is done with. -/
theorem count_done {ts us : List Token} {p : Problem} (stop : Nat)
    (ho : ∀ o ∈ openAfter ts, o.span ≠ p.span) (hu : ∀ u ∈ us, u.span ≠ p.span) :
    ((Nesting.run (ts ++ us)).finish stop).problems.count p =
      (Nesting.run ts).problems.count p := by
  obtain ⟨h1, h2⟩ := run_silent ho hu
  rw [Nesting.finish_problems, List.count_append, count_map_unclosed h1, h2 p rfl, Nat.add_zero]

section Distinct

theorem nodup_before {xs ys : List Token} (hn : ((xs ++ ys).map span).Nodup) :
    (xs.map span).Nodup := by
  rw [List.map_append] at hn
  exact (List.nodup_append.1 hn).1

/-- Among tokens with different spans no other has the span of one of them. -/
theorem span_ne {before after : List Token} {t : Token}
    (hn : ((before ++ t :: after).map span).Nodup) :
    (∀ x ∈ before, x.span ≠ t.span) ∧ ∀ x ∈ after, x.span ≠ t.span := by
  rw [List.map_append, List.map_cons, List.nodup_middle, List.nodup_cons] at hn
  constructor <;>
  · intro x hx he
    refine hn.1 ?_
    rw [← he]
    simp only [List.mem_append]
    first
      | exact .inl (List.mem_map_of_mem hx)
      | exact .inr (List.mem_map_of_mem hx)

variable {ts : List Token} (hn : (ts.map span).Nodup)
include hn

theorem openAfter_nodup : ((openAfter ts).map span).Nodup := by
  refine ((openAfter_sublist ts).map span).nodup ?_
  rw [List.map_reverse]
  exact List.nodup_reverse.2 hn

theorem count_open {t : Token} (ht : t ∈ openAfter ts) :
    (Nesting.run ts).problems.count t.unclosed = 0 := by
  obtain ⟨inner, outer, hs⟩ := List.append_of_mem ht
  obtain ⟨i, o, r, hl, -, rfl, -⟩ := Nesting.opened_of_tags hs
  obtain ⟨before, inside, rfl, hw, -⟩ := Nesting.run_opened hl
  obtain ⟨h1, h2⟩ := span_ne hn
  have hp : (Nesting.run (before ++ o.tag :: inside)).problems =
      (Nesting.run before).problems ++ (Nesting.run inside).problems := by rw [hw]; rfl
  rw [hp, List.count_append, count_none h1, count_none h2]

theorem open_ne {inner outer : List Token} {t : Token} (h : openAfter ts = inner ++ t :: outer) :
    (∀ x ∈ inner, x.span ≠ t.span) ∧ ∀ x ∈ outer, x.span ≠ t.span := by
  have hs := openAfter_nodup hn
  rw [h] at hs
  exact span_ne hs

end Distinct

end Token

namespace Nesting

/-- How the section of the tag `t` ends among the tokens `ts` of a source of `stop`
bytes, and how often it is reported. -/
inductive Ending (ts : List Token) (stop : Nat) (t : Token) (body : Span) : (reports : Nat) → Prop
  | own {before inside after inner : List Token} {c : Token} :
      ts = before ++ t :: (inside ++ c :: after) → c.kind = .close → c.value = t.value →
      Token.openAfter (before ++ t :: inside) = inner ++ t :: Token.openAfter before →
      (∀ x ∈ inner, x.value ≠ c.value) →
      body.start = t.span.stop → body.stop = c.span.start → Ending ts stop t body 0
  | around {before inside after inner : List Token} {c : Token} :
      ts = before ++ t :: (inside ++ c :: after) → c.kind = .close → c.value ≠ t.value →
      Token.openAfter (before ++ t :: inside) = inner ++ t :: Token.openAfter before →
      (∀ x ∈ inner, x.value ≠ c.value) → (∃ x ∈ Token.openAfter before, x.value = c.value) →
      body.start = t.span.stop → body.stop = c.span.start → Ending ts stop t body 1
  | source {before inside inner : List Token} :
      ts = before ++ t :: inside →
      Token.openAfter ts = inner ++ t :: Token.openAfter before →
      body.start = t.span.stop → body.stop.toNat = stop → Ending ts stop t body 1

inductive Closing (before : List Token) (c : Token) : (reports : Nat) → Prop
  | ends {inner outer : List Token} {t : Token} :
      Token.openAfter before = inner ++ t :: outer → (∀ x ∈ inner, x.value ≠ c.value) →
      t.value = c.value → Token.openAfter (before ++ [c]) = outer → Closing before c 0
  | dropped : (∀ x ∈ Token.openAfter before, x.value ≠ c.value) →
      Token.openAfter (before ++ [c]) = Token.openAfter before → Closing before c 1

theorem closing_count {before after : List Token} {c : Token} (stop : Nat)
    (hn : ((before ++ c :: after).map Token.span).Nodup) (hc : c.kind = .close) :
    ∃ k, Closing before c k ∧
      ((run (before ++ c :: after)).finish stop).problems.count c.unmatched = k := by
  obtain ⟨hb, ha⟩ := Token.span_ne hn
  have ho : ∀ o ∈ Token.openAfter before, o.span ≠ c.span := fun o ho =>
    hb o (Token.mem_of_openAfter ho)
  have h0 : (run before).problems.count c.unmatched = 0 := Token.count_none hb
  rw [List.append_cons]
  rcases split_named Token.value c.value (Token.openAfter before) with
    hv | ⟨inner, m, outer, hl, hi, hm⟩
  · have hopen : Token.openAfter (before ++ [c]) = Token.openAfter before := by
      rw [Token.openAfter_snoc, Token.openBehind_unmatched hc hv]
    refine ⟨1, .dropped hv hopen, ?_⟩
    rw [Token.count_done stop (by rwa [hopen]) ha, run_problems_unmatched hc hv, List.count_append,
      h0, List.count_singleton_self]
  · have hopen : Token.openAfter (before ++ [c]) = outer := by
      rw [Token.openAfter_snoc, Token.openBehind_matched hc hl hi hm]
    refine ⟨0, .ends hl hi hm hopen, ?_⟩
    rw [Token.count_done stop ?_ ha, run_problems_matched hc hl hi hm, List.count_append, h0,
      Token.count_map_unclosed]
    · exact fun o hom => ho o (by simp [hl, hom])
    · rw [hopen]
      exact fun o hom => ho o (by simp [hl, hom])

/-- A section reported by the close tag that ends it is not reported again. -/
theorem ended_count {before inside after inner i r : List Token} {t c m : Token} (stop : Nat)
    (hn : ((before ++ t :: (inside ++ c :: after)).map Token.span).Nodup) (hc : c.kind = .close)
    (ho : Token.openAfter (before ++ t :: inside) = inner ++ t :: Token.openAfter before)
    (hm : Token.openAfter (before ++ t :: inside) = i ++ m :: r)
    (hi : ∀ x ∈ i, x.value ≠ c.value) (hv : m.value = c.value)
    (hr : r <:+ Token.openAfter before) :
    ((run (before ++ t :: (inside ++ c :: after))).finish stop).problems.count t.unclosed =
      (i.map Token.unclosed).count t.unclosed := by
  have hs : before ++ t :: (inside ++ c :: after) = before ++ t :: inside ++ [c] ++ after := by
    simp
  obtain ⟨hb, hl⟩ := Token.span_ne hn
  have hu : ∀ u ∈ after, u.span ≠ t.unclosed.span := fun u hu => hl u (by simp [hu])
  have hn' : ((before ++ t :: inside).map Token.span).Nodup := by
    rw [hs, List.append_assoc] at hn
    exact Token.nodup_before hn
  have hopen : Token.openAfter (before ++ t :: inside ++ [c]) = r := by
    rw [Token.openAfter_snoc, Token.openBehind_matched hc hm hi hv]
  rw [hs, Token.count_done stop ?_ hu, run_problems_matched hc hm hi hv,
    List.count_append, Token.count_open hn' (by simp [ho]), Nat.zero_add]
  rw [hopen]
  exact fun o hor => hb o (Token.mem_of_openAfter (hr.subset hor))

/-- The body of a section lies between its tag and the token that ends it. -/
theorem body_bounds {before inside after : List Token} {t c : Token} {stop : Nat}
    (hs : Token.Spaced 0 (before ++ t :: (inside ++ c :: after)) stop) :
    (Span.ofBounds t.span.stop.toNat c.span.start.toNat).start = t.span.stop ∧
      (Span.ofBounds t.span.stop.toNat c.span.start.toNat).stop = c.span.start := by
  have hp := hs.pairwise
  have hle : t.span.stop ≤ c.span.start := by
    rw [List.map_append, List.map_cons, List.map_append, List.map_cons] at hp
    exact (List.pairwise_cons.1 (List.pairwise_append.1 hp).2.1).1 _ (by simp)
  rw [Span.ofBounds_stop (UInt32.le_iff_toNat_le.1 hle)]
  exact ⟨Span.clamp_self _, Span.clamp_self _⟩

theorem sectionOf_eq {t : Token} (ht : t.kind.opensSection) {inside : List Token} {stop : Nat}
    {name : String} {inverted : Bool} {span body : Span} {cs : List Node}
    (h : sectionOf t inside stop = .sectionTag name inverted span body cs) :
    t = tag ⟨name, inverted, span, cs⟩ ∧ body = .ofBounds t.span.stop.toNat stop ∧
      cs = ((run inside).finish stop).root := by
  have hs : sectionOf t inside stop = .sectionTag t.value (ofTag t).inverted t.span
      (.ofBounds t.span.stop.toNat stop) ((run inside).finish stop).root := by
    rw [sectionOf, OpenSection.finish, grow_children]
    rfl
  rw [hs] at h
  cases h
  exact ⟨(tag_ofTag ht).symm, rfl, rfl⟩

theorem Closed.ending {ts : List Token} {stop : Nat} (hs : Token.Spaced 0 ts stop)
    {name : String} {inverted : Bool} {span body : Span} {cs : List Node}
    (h : Closed ts (.sectionTag name inverted span body cs)) :
    ∃ k, Ending ts stop (tag ⟨name, inverted, span, cs⟩) body k ∧
      ((run ts).finish stop).problems.count (.unclosedSection name span) = k := by
  generalize hx : Node.sectionTag name inverted span body cs = x at h
  cases h with
  | @mk before inside after inner t c hts ht hc ho hi hm =>
    obtain ⟨rfl, rfl, -⟩ := sectionOf_eq ht hx.symm
    subst hts
    obtain ⟨hb, he⟩ := body_bounds hs
    have hn := hs.nodup
    have hts : before ++ tag ⟨name, inverted, span, cs⟩ :: (inside ++ c :: after) =
        before ++ tag ⟨name, inverted, span, cs⟩ :: inside ++ c :: after := by simp
    have hne := Token.open_ne (Token.nodup_before (hts ▸ hn)) ho
    by_cases hv : c.value = name
    · have h0 := ended_count stop hn hc ho ho hi hv.symm (List.suffix_refl _)
      exact ⟨0, .own rfl hc hv ho hi hb he, h0.trans (Token.count_map_unclosed hne.1)⟩
    · have hm' : ∃ x ∈ Token.openAfter before, x.value = c.value := by
        obtain ⟨x, hx, hxv⟩ := hm
        rcases List.mem_cons.1 hx with rfl | hx
        · exact absurd hxv.symm hv
        · exact ⟨x, hx, hxv⟩
      refine ⟨1, .around rfl hc hv ho hi hm' hb he, ?_⟩
      rcases split_named Token.value c.value (Token.openAfter before) with
        hno | ⟨i, m, r, hl, hi', hmv⟩
      · obtain ⟨x, hx, hxv⟩ := hm'
        exact absurd hxv (hno x hx)
      · have h1 := ended_count stop hn hc ho (i := inner ++ tag ⟨name, inverted, span, cs⟩ :: i)
          (m := m) (r := r) (by rw [ho, hl]; simp) ?_ hmv (by rw [hl]; exact ⟨i ++ [m], by simp⟩)
        · refine h1.trans ?_
          rw [List.map_append, List.map_cons, List.count_append, List.count_cons_self,
            Token.count_map_unclosed hne.1, Token.count_map_unclosed]
          exact fun x hx => hne.2 x (by simp [hl, hx])
        · intro x hx
          rcases List.mem_append.1 hx with hx | hx
          · exact hi x hx
          · rcases List.mem_cons.1 hx with rfl | hx
            · exact fun h => hv h.symm
            · exact hi' x hx

theorem AtEnd.ending {ts : List Token} {stop : Nat} (hs : Token.Spaced 0 ts stop)
    (hstop : stop < 2 ^ 32) {name : String} {inverted : Bool} {span body : Span} {cs : List Node}
    (h : AtEnd ts stop (.sectionTag name inverted span body cs)) :
    Ending ts stop (tag ⟨name, inverted, span, cs⟩) body 1 ∧
      ((run ts).finish stop).problems.count (.unclosedSection name span) = 1 := by
  generalize hx : Node.sectionTag name inverted span body cs = x at h
  cases h with
  | @mk before inside inner t hts ht ho =>
    obtain ⟨rfl, rfl, -⟩ := sectionOf_eq ht hx.symm
    have hmem : span ∈ ts.map Token.span := by simp [hts, tag]
    have hle := (hs.bounds hmem).2.2
    refine ⟨.source hts ho (Span.clamp_self _) (Span.stop_toNat hle hstop), ?_⟩
    have hne := Token.open_ne hs.nodup ho
    change ((run ts).finish stop).problems.count (tag ⟨name, inverted, span, cs⟩).unclosed = 1
    rw [finish_problems, List.count_append, Token.count_open hs.nodup (by simp [ho]), ho,
      List.map_append, List.map_cons, List.count_append, List.count_cons_self,
      Token.count_map_unclosed hne.1, Token.count_map_unclosed hne.2]

/-- The token that ends a section is told by where the section stops to be open. -/
theorem same_place {xs ys before after : List Token} {t c c' : Token}
    (hn : ((xs ++ c' :: ys).map Token.span).Nodup) (hs : xs ++ c' :: ys = before ++ c :: after)
    (ht : t ∈ Token.openAfter xs) (ht' : ∀ o ∈ Token.openAfter (xs ++ [c']), o.span ≠ t.span)
    (hb : t ∈ Token.openAfter before) : ∃ zs, xs = before ++ zs := by
  rcases List.append_eq_append_iff.1 hs with ⟨as, rfl, he⟩ | ⟨as, rfl, -⟩
  · cases as with
    | nil => exact ⟨[], by simp⟩
    | cons a as =>
      obtain ⟨rfl, rfl⟩ := List.cons.inj he
      have hlater : ∀ u ∈ as, u.span ≠ t.span := by
        intro u hu heq
        rw [List.map_append] at hn
        exact (List.nodup_append.1 hn).2.2 _ (List.mem_map_of_mem (Token.mem_of_openAfter ht)) _
          (List.mem_map_of_mem (a := u) (by simp [hu])) heq.symm
      have := (Token.run_silent ht' hlater).1 t (by simpa using hb)
      exact absurd rfl this
  · exact ⟨as, rfl⟩

/-- A section's body ends at the close tag behind which it is not open any more. -/
theorem Ending.stop_eq {ts before after : List Token} {t c : Token} {stop k : Nat} {body : Span}
    (hn : (ts.map Token.span).Nodup) (hts : ts = before ++ c :: after)
    (ht : t ∈ Token.openAfter before)
    (hc : ∀ o ∈ Token.openAfter (before ++ [c]), o.span ≠ t.span)
    (he : Ending ts stop t body k) : body.stop = c.span.start := by
  have hclosed : ∀ {b i a inner : List Token} {c' : Token}, ts = b ++ t :: (i ++ c' :: a) →
      Token.openAfter (b ++ t :: i) = inner ++ t :: Token.openAfter b →
      Token.openAfter (b ++ t :: i ++ [c']) <:+ Token.openAfter b →
      body.stop = c'.span.start → body.stop = c.span.start := by
    intro b i a inner c' hb ho hr hstop
    have hs : b ++ t :: i ++ c' :: a = before ++ c :: after := by rw [← hts, hb]; simp
    rw [hts] at hn
    have hn' : ((b ++ t :: i ++ c' :: a).map Token.span).Nodup := by rwa [hs]
    have hne : ∀ x ∈ b, x.span ≠ t.span := by
      rw [List.append_assoc] at hn'
      exact (Token.span_ne hn').1
    obtain ⟨zs, hz⟩ := same_place hn' hs (by rw [ho]; simp)
      (fun o ho => hne o (Token.mem_of_openAfter (hr.subset ho))) ht
    obtain ⟨ws, hw⟩ := same_place hn hs.symm ht hc (by rw [ho]; simp)
    obtain rfl : zs = [] := by
      have hl := congrArg List.length (hz.trans (congrArg (· ++ zs) hw))
      simp only [List.length_append] at hl
      exact List.length_eq_zero_iff.1 (by omega)
    rw [hz, List.append_nil] at hs
    obtain ⟨rfl, -⟩ := List.cons.inj (List.append_cancel_left hs)
    exact hstop
  cases he with
  | @own b i a inner c' hb hc' hv ho hi _ hstop =>
    refine hclosed hb ho ?_ hstop
    rw [Token.openAfter_snoc]
    exact Token.openBehind_inside hc' ho hi ⟨t, by simp, hv.symm⟩
  | @around b i a inner c' hb hc' hv ho hi hm _ hstop =>
    refine hclosed hb ho ?_ hstop
    obtain ⟨x, hx, hxv⟩ := hm
    rw [Token.openAfter_snoc]
    exact Token.openBehind_inside hc' ho hi ⟨x, List.mem_cons_of_mem _ hx, hxv⟩
  | @source b i inner hb ho _ _ =>
    have hs : ts = before ++ [c] ++ after := by rw [hts]; simp
    rw [hs, List.map_append] at hn
    have hlater : ∀ u ∈ after, u.span ≠ t.span := fun u hu heq =>
      (List.nodup_append.1 hn).2.2 _
        (List.mem_map_of_mem (List.mem_append_left _ (Token.mem_of_openAfter ht))) _
        (List.mem_map_of_mem hu) heq.symm
    have := (Token.run_silent hc hlater).1 t (by rw [← hs, ho]; simp)
    exact absurd rfl this

theorem tag_problems {d : Delimiters} {s : List Char} {p : Problem}
    (h : p ∈ Lexeme.problems (Lexeme.read d 0 s)) (t : Token) :
    p ≠ t.unclosed ∧ p ≠ t.unmatched := by
  rcases Cursor.problem_cases (c := ⟨d, 0, s⟩) h with ⟨u, ls, c, v, c', -, hstep⟩ |
    ⟨u, ls, c, e, sp, -, -, rfl⟩
  · have ht := hstep.tile
    constructor <;>
    · rintro rfl
      cases ht
  · exact ⟨by simp [Token.unclosed], by simp [Token.unmatched]⟩

end Nesting

namespace Template

variable {d : Delimiters} {source : String}

theorem tokens_spaced (h : Text.byteLength source.toList < 2 ^ 32) :
    Token.Spaced 0 (tokens d source) (Text.byteLength source.toList) := by
  have hs := Token.read_spaced (c := ⟨d, 0, source.toList⟩) (by simpa using h)
  rw [Nat.zero_add] at hs
  exact hs

theorem squash_spaced (h : Text.byteLength source.toList < 2 ^ 32) :
    Token.Spaced 0 (Token.squash (tokens d source)) (Text.byteLength source.toList) :=
  Token.squash_spaced (tokens_spaced h)

theorem parse_unclosed (t : Token) :
    (parse d source).problems.count t.unclosed =
      (nest source (Token.squash (tokens d source))).problems.count t.unclosed := by
  have h0 : (Lexeme.problems (lexemes d source)).count t.unclosed = 0 :=
    List.count_eq_zero.2 fun hm => (Nesting.tag_problems hm t).1 rfl
  rw [parse, List.count_append, h0, Nat.zero_add]
  rfl

theorem parse_unmatched (t : Token) :
    (parse d source).problems.count t.unmatched =
      (nest source (Token.squash (tokens d source))).problems.count t.unmatched := by
  have h0 : (Lexeme.problems (lexemes d source)).count t.unmatched = 0 :=
    List.count_eq_zero.2 fun hm => (Nesting.tag_problems hm t).2 rfl
  rw [parse, List.count_append, h0, Nat.zero_add]
  rfl

theorem parse_ending (h : Text.byteLength source.toList < 2 ^ 32) {name : String}
    {inverted : Bool} {span body : Span} {cs : List Node}
    (hx : (Node.sectionTag name inverted span body cs).Inside (parse d source).nodes) :
    ∃ k, Nesting.Ending (Token.squash (tokens d source)) (Text.byteLength source.toList)
      (tag ⟨name, inverted, span, cs⟩) body k ∧
      (parse d source).problems.count (.unclosedSection name span) = k := by
  have hcount : (parse d source).problems.count (.unclosedSection name span) =
      (nest source (Token.squash (tokens d source))).problems.count (.unclosedSection name span) :=
    parse_unclosed (tag ⟨name, inverted, span, cs⟩)
  rw [hcount]
  rcases Nesting.finished_section (x := .sectionTag name inverted span body cs) trivial hx with
    hc | he
  · exact hc.ending (squash_spaced h)
  · exact ⟨1, he.ending (squash_spaced h) h⟩

end Template

structure Nesting.Accounts (source : String) (ts : List Token) (t : Template) : Prop where
  preorder : Node.preorderAll t.nodes = ts.filter Token.hasNode
  closing : ∀ before c after, ts = before ++ c :: after → c.kind = .close →
    ∃ k, Closing before c k ∧ t.problems.count c.unmatched = k
  ending : ∀ name inverted span body cs,
    (Node.sectionTag name inverted span body cs).Inside t.nodes →
    ∃ k, Ending ts (Text.byteLength source.toList) (tag ⟨name, inverted, span, cs⟩) body k ∧
      t.problems.count (.unclosedSection name span) = k
  closed : ∀ before c after inner o outer, ts = before ++ c :: after → c.kind = .close →
    Token.openAfter before = inner ++ o :: outer → (∀ x ∈ inner, x.value ≠ c.value) →
    o.value = c.value → ∃ name inverted span body cs,
      (Node.sectionTag name inverted span body cs).Inside t.nodes ∧
      o = tag ⟨name, inverted, span, cs⟩ ∧ body.stop = c.span.start
  balanced : t.problems = [] → ∀ name inverted span body cs,
    (Node.sectionTag name inverted span body cs).Inside t.nodes →
    ∃ c ∈ ts, c.kind = .close ∧ c.value = name ∧ body.start = span.stop ∧
      body.stop = c.span.start

open Nesting in
/-- The tree of every template accounts for its tokens, whatever its delimiters. -/
theorem nesting_accounts (d : Delimiters) (source : String)
    (h : Text.byteLength source.toList < 2 ^ 32) :
    Accounts source (Token.squash (Template.tokens d source)) (Template.parse d source) where
  preorder := finish_preorder _ _
  closing := by
    intro before c after hts hc
    have hn := (Template.squash_spaced (d := d) h).nodup
    rw [hts] at hn
    obtain ⟨k, hk, hcount⟩ := closing_count (Text.byteLength source.toList) hn hc
    refine ⟨k, hk, ?_⟩
    rw [Template.parse_unmatched, ← hcount, ← hts]
    rfl
  ending _ _ _ _ _ hx := Template.parse_ending h hx
  closed := by
    intro before c after inner o outer hts hc ho hi hv
    have hn := (Template.squash_spaced (d := d) h).nodup
    have hom : o ∈ Token.openAfter before := by simp [ho]
    have hopens : o.kind.opensSection := Token.openAfter_opens hom
    have hpre : Node.preorderAll (Template.parse d source).nodes =
        (Token.squash (Template.tokens d source)).filter Token.hasNode := finish_preorder _ _
    have hmem : o ∈ Node.preorderAll (Template.parse d source).nodes := by
      rw [hpre, hts, List.filter_append]
      exact List.mem_append_left _
        (List.mem_filter.2 ⟨Token.mem_of_openAfter hom, Token.hasNode_opens hopens⟩)
    obtain ⟨name, inverted, span, body, cs, hx, rfl⟩ := Node.Inside.of_preorder hopens hmem
    obtain ⟨k, hk, -⟩ := Template.parse_ending h hx
    refine ⟨name, inverted, span, body, cs, hx, rfl, hk.stop_eq hn hts hom ?_⟩
    rw [hts] at hn
    rw [Token.openAfter_snoc, Token.openBehind_matched hc ho hi hv]
    exact (Token.open_ne (Token.nodup_before hn) ho).2
  balanced := by
    intro hno name inverted span body cs hx
    obtain ⟨k, hk, hcount⟩ := Template.parse_ending h hx
    rw [hno, List.count_nil] at hcount
    subst hcount
    cases hk with
    | own hts hc hv _ _ hb he => exact ⟨_, by rw [hts]; simp, hc, hv, hb, he⟩

/-- Two sections that cross, and one that no tag ends. -/
theorem nesting_accounts_crossing :
    Text.byteLength
      "{{#a}}{{#b}}x{{/a}}{{/b}}{{^c}}".toList < 2 ^ 32 ∧
    Nesting.Accounts
      "{{#a}}{{#b}}x{{/a}}{{/b}}{{^c}}"
      (Token.squash (Template.tokens .standard
        "{{#a}}{{#b}}x{{/a}}{{/b}}{{^c}}"))
      (Template.parse .standard
        "{{#a}}{{#b}}x{{/a}}{{/b}}{{^c}}") :=
  ⟨by decide +kernel, nesting_accounts _ _ (by decide +kernel)⟩

end Stencil
