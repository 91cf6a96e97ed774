import Stencil.Diagnostic.Layout
import Stencil.Proofs.Template.Coverage
import Stencil.Proofs.Template.Sections

/-!
# Where nodes and problems stand

The tree of a template is a tree of intervals. A section reaches from its tag to
the end of its body; the nodes outside of all sections and the tags of the open
sections stand in the order of the source, and a close tag takes the last of these
together. What holds of the outermost nodes holds at every depth, for the children
of a section are the tree of its body.
-/

set_option autoImplicit false

namespace Stencil

open OpenSection Text

namespace Span

def Fits (source : List Char) (s : Span) : Prop :=
  ∃ a m z, source = a ++ (m ++ z) ∧ s.start.toNat = byteLength a ∧
    s.length.toNat = byteLength m ∧ s.slice source = m

theorem Fits.ofBounds {source a m z : List Char} (hs : source = a ++ (m ++ z))
    (h : byteLength source < 2 ^ 32) :
    (Span.ofBounds (byteLength a) (byteLength a + byteLength m)).Fits source := by
  subst hs
  rw [byteLength_append, byteLength_append] at h
  have hlen := length_toNat (Nat.le_add_right (byteLength a) (byteLength m)) (by omega)
  exact ⟨a, m, z, rfl, start_toNat (by omega) (by omega), by omega,
    slice_ofBounds a m z (by omega)⟩

theorem Fits.stop_le {source : List Char} {s : Span} (h : s.Fits source) :
    s.stop.toNat ≤ byteLength source := by
  obtain ⟨a, m, z, rfl, hs, hl, -⟩ := h
  rw [stop, clamp_toNat, byteLength_append, byteLength_append]
  omega

namespace Spaced

theorem stretch {a b b' : Nat} {ss : List Span} (h : Spaced a ss b) (hb : b ≤ b') :
    Spaced a ss b' := by
  induction ss generalizing a with
  | nil => exact Nat.le_trans h hb
  | cons s ss ih => exact ⟨h.1, h.2.1, ih h.2.2⟩

theorem split {a b : Nat} {ss ts : List Span} (h : Spaced a (ss ++ ts) b) :
    ∃ c, Spaced a ss c ∧ Spaced c ts b := by
  induction ss generalizing a with
  | nil => exact ⟨a, Nat.le_refl a, h⟩
  | cons s ss ih =>
    obtain ⟨c, h1, h2⟩ := ih h.2.2
    exact ⟨c, ⟨h.1, h.2.1, h1⟩, h2⟩

theorem single {a : Nat} {s : Span} (h : a ≤ s.start.toNat) (hs : s.start < s.stop) :
    Spaced a [s] s.stop.toNat := ⟨h, hs, Nat.le_refl _⟩

theorem moved {k a b : Nat} {ss : List Span} (h : Spaced a ss b) (hb : b + k < 2 ^ 32) :
    Spaced (a + k) (ss.map (Span.moved k)) (b + k) := by
  induction ss generalizing a with
  | nil => exact Nat.add_le_add_right h k
  | cons s ss ih =>
    have hle := h.2.2.le
    have hlt := UInt32.lt_iff_toNat_lt.1 h.2.1
    have h1 : (s.moved k).start.toNat = s.start.toNat + k := clamp_toNat_of_lt (by omega)
    have h2 : (s.moved k).stop.toNat = s.stop.toNat + k := by
      rw [moved_stop, clamp_toNat_of_lt (by omega)]
    refine ⟨?_, UInt32.lt_iff_toNat_lt.2 ?_, ?_⟩
    · rw [h1]
      exact Nat.add_le_add_right h.1 k
    · rw [h1, h2]
      exact Nat.add_lt_add_right hlt k
    · rw [h2]
      exact ih h.2.2

end Spaced

end Span

namespace Node

def spans : Node → List Span
  | sectionTag _ _ span body _ => [span, body]
  | text _ s | variableTag _ _ s | partialTag _ s | comment _ s => [s]

def extent : Node → Span
  | sectionTag _ _ span body _ => .ofBounds span.start.toNat body.stop.toNat
  | text _ s | variableTag _ _ s | partialTag _ s | comment _ s => s

theorem extent_moved (k : Nat) (n : Node) : (moved k n).extent = n.extent.moved k := by
  cases n with
  | sectionTag name inverted span body cs =>
    rw [moved, extent, extent, Span.moved_ofBounds, Span.moved_stop]
    exact Span.ofBounds_congr (Span.clamp_clamp _) (Span.clamp_clamp _)
  | _ => rfl

theorem movedAll_extents (k : Nat) (ns : List Node) :
    (movedAll k ns).map extent = (ns.map extent).map (Span.moved k) := by
  induction ns with
  | nil => rfl
  | cons n ns ih => rw [movedAll, List.map_cons, List.map_cons, List.map_cons, extent_moved, ih]

end Node

namespace Nesting

/-- The outermost nodes and, behind them, the tags of the open sections are in the
order of the source. -/
def Room (a : Nat) (n : Nesting) (b : Nat) : Prop :=
  Span.Spaced a (n.root.map Node.extent ++ n.opened.reverse.map OpenSection.span) b

variable {a b c : Nat} {n : Nesting} {t : Token}

theorem Room.insertAll (h : Room a n b) {ns : List Node}
    (hs : Span.Spaced b (ns.map Node.extent) c) : Room a (n.insertAll ns) c := by
  obtain ⟨_ | ⟨o, os⟩, root, problems⟩ := n
  · have := h.append hs
    simpa [Room, Nesting.insertAll] using this
  · have := h.stretch hs.le
    simpa [Room, Nesting.insertAll, grow] using this

theorem finish_extent {o : OpenSection} {ns : List Node} {stop : Nat}
    (h : o.span.stop.toNat ≤ stop) (hs : stop < 2 ^ 32) :
    ((o.grow ns).finish stop).extent = .ofBounds o.span.start.toNat stop := by
  change Span.ofBounds _ (Span.ofBounds o.span.stop.toNat stop).stop.toNat = _
  rw [Span.stop_toNat h hs]
  rfl

/-- Sections that end at byte `stop` are one node from the outermost tag on. -/
theorem Room.collapse {inner outer : List OpenSection} {m : OpenSection} {root : List Node}
    {ps : List Problem} {stop : Nat} (h : Room a ⟨inner ++ m :: outer, root, ps⟩ b)
    (hb : b ≤ stop) (hs : stop < 2 ^ 32) (qs : List Problem) :
    Room a (Nesting.insertAll ⟨outer, root, qs⟩ (collapse stop [] (inner ++ [m]))) stop := by
  obtain ⟨c, houter, hm⟩ : ∃ c, Room a ⟨outer, root, qs⟩ c ∧
      Span.Spaced c (m.span :: inner.reverse.map OpenSection.span) b := by
    refine Span.Spaced.split ?_
    simpa [Room] using h
  have hstart := UInt32.lt_iff_toNat_lt.1 hm.2.1
  have hstop := hm.2.2.le
  refine houter.insertAll ?_
  rw [collapse_snoc, List.map_singleton, finish_extent (by omega) hs]
  have h1 : (Span.ofBounds m.span.start.toNat stop).start.toNat = m.span.start.toNat :=
    Span.start_toNat (by omega) hs
  have h2 : (Span.ofBounds m.span.start.toNat stop).stop.toNat = stop :=
    Span.stop_toNat (by omega) hs
  have hone : Span.Spaced c [Span.ofBounds m.span.start.toNat stop]
      (Span.ofBounds m.span.start.toNat stop).stop.toNat :=
    .single (by rw [h1]; exact hm.1) (UInt32.lt_iff_toNat_lt.2 (by omega))
  rwa [h2] at hone

theorem leaves_spaced (h : b ≤ t.span.start.toNat) (ht : t.span.start < t.span.stop) :
    Span.Spaced b (t.leaves.map Node.extent) t.span.stop.toNat := by
  have hnone : Span.Spaced b [] t.span.stop.toNat :=
    Nat.le_trans h (Nat.le_of_lt (UInt32.lt_iff_toNat_lt.1 ht))
  have hone : Span.Spaced b [t.span] t.span.stop.toNat := .single h ht
  obtain ⟨kind, value, span⟩ := t
  cases kind with
  | text | name | unescaped | partialTag | comment => exact hone
  | sectionStart | invertedStart | close | setDelimiters => exact hnone

theorem Room.step (h : Room a n b) (hb : b ≤ t.span.start.toNat)
    (ht : t.span.start < t.span.stop) : Room a (step n t) t.span.stop.toNat := by
  have hlt := UInt32.lt_iff_toNat_lt.1 ht
  by_cases hk : t.kind.opensSection
  · have := h.append (Span.Spaced.single hb ht)
    rw [step_opens n hk]
    simpa [Room, ofTag] using this
  by_cases hc : t.kind = .close
  · rw [step_close n hc]
    rcases split_named OpenSection.name t.value n.opened with hn | ⟨inner, m, outer, hl, hi, hm⟩
    · rw [close_unmatched hn]
      exact Span.Spaced.stretch h (by omega)
    · rw [close_matched hl hi hm]
      have hopen : Room a ⟨inner ++ m :: outer, n.root, n.problems⟩ b := by rwa [← hl]
      exact (hopen.collapse hb t.span.start.toNat_lt _).stretch (Nat.le_of_lt hlt)
  · rw [step_adds n hk hc]
    exact h.insertAll (leaves_spaced hb ht)

theorem run_room {ts : List Token} (h : Token.Spaced a ts b) : Room a (run ts) b := by
  induction ts using List.reverseRecOn generalizing b with
  | nil => exact h
  | append_singleton ts t ih =>
    obtain ⟨c, hts, ht⟩ : ∃ c, Token.Spaced a ts c ∧ Span.Spaced c [t.span] b := by
      refine Span.Spaced.split ?_
      simpa [Token.Spaced] using h
    rw [run_snoc]
    exact ((ih hts).step ht.1 ht.2.1).stretch ht.2.2

theorem finish_spaced {ts : List Token} (h : Token.Spaced a ts b) (hb : b < 2 ^ 32) :
    Span.Spaced a (((run ts).finish b).root.map Node.extent) b := by
  have hr := run_room h
  rw [finish_eq]
  rcases List.eq_nil_or_concat (run ts).opened with ho | ⟨inner, m, ho⟩
  · simpa [Room, ho, OpenSection.collapse] using hr
  · rw [List.concat_eq_append] at ho
    have hopen : Room a ⟨inner ++ m :: [], (run ts).root, (run ts).problems⟩ b := by rwa [← ho]
    have := hopen.collapse (Nat.le_refl b) hb []
    simpa [Room, Nesting.insertAll, ho] using this

theorem run_reports {ts : List Token} {p : Problem} (h : p ∈ (run ts).problems) :
    ∃ t ∈ ts, p = t.unclosed ∨ p = t.unmatched := by
  induction ts using List.reverseRecOn with
  | nil => cases h
  | append_singleton ts t ih =>
    have hold : p ∈ (run ts).problems → ∃ u ∈ ts ++ [t], p = u.unclosed ∨ p = u.unmatched :=
      fun hp => (ih hp).imp fun u hu => ⟨List.mem_append_left _ hu.1, hu.2⟩
    by_cases hc : t.kind = .close
    · rcases split_named Token.value t.value (Token.openAfter ts) with
        hn | ⟨inner, m, outer, hl, hi, hm⟩
      · rw [run_problems_unmatched hc hn] at h
        rcases List.mem_append.1 h with h | h
        · exact hold h
        · exact ⟨t, by simp, .inr (List.mem_singleton.1 h)⟩
      · rw [run_problems_matched hc hl hi hm] at h
        rcases List.mem_append.1 h with h | h
        · exact hold h
        · obtain ⟨u, hu, rfl⟩ := List.mem_map.1 h
          have hopen : u ∈ Token.openAfter ts := by
            rw [hl]
            exact List.mem_append_left _ hu
          exact ⟨u, List.mem_append_left _ (Token.mem_of_openAfter hopen), .inl rfl⟩
    · rw [run_problems_other hc] at h
      exact hold h

theorem finish_reports {ts : List Token} {stop : Nat} {p : Problem}
    (h : p ∈ ((run ts).finish stop).problems) : ∃ t ∈ ts, p = t.unclosed ∨ p = t.unmatched := by
  rw [finish_problems] at h
  rcases List.mem_append.1 h with h | h
  · exact run_reports h
  · obtain ⟨t, ht, rfl⟩ := List.mem_map.1 h
    exact ⟨t, Token.mem_of_openAfter ht, .inl rfl⟩

end Nesting

/-! ## Positions of a template -/

theorem Diagnostic.marked_eq {d : Diagnostic} (h : d.span.stop.toNat ≤ byteLength d.source.toList) :
    d.marked = (d.span.start.toNat, d.span.stop.toNat) := by
  have hle := UInt32.le_iff_toNat_le.1 d.span.start_le_stop
  have hstart : min d.span.start.toNat (byteLength d.source.toList) = d.span.start.toNat := by
    omega
  have hstop : min d.span.stop.toNat (byteLength d.source.toList) = d.span.stop.toNat := by
    omega
  simp only [marked, hstart, hstop, Nat.max_eq_right hle]

namespace Node

def tagToken : Node → Token
  | text s span => ⟨.text, s, span⟩
  | variableTag name escaped span => ⟨if escaped then .name else .unescaped, name, span⟩
  | sectionTag name inverted span _ _ =>
    ⟨if inverted then .invertedStart else .sectionStart, name, span⟩
  | partialTag name span => ⟨.partialTag, name, span⟩
  | comment content span => ⟨.comment, content, span⟩

theorem tagToken_mem (n : Node) : n.tagToken ∈ n.preorder := by
  cases n <;> simp [preorder, tagToken]

theorem preorder_subset {n : Node} {ns : List Node} (h : n ∈ ns) :
    n.preorder ⊆ preorderAll ns := by
  obtain ⟨as, bs, rfl⟩ := List.append_of_mem h
  intro t ht
  simp [preorderAll_append, preorderAll, ht]

theorem Inside.tagToken_mem {n : Node} {ns : List Node} (h : n.Inside ns) :
    n.tagToken ∈ preorderAll ns := by
  induction h with
  | here hn => exact preorder_subset hn n.tagToken_mem
  | deeper hs _ ih => exact preorder_subset hs (List.mem_cons_of_mem _ ih)

theorem Inside.child {name : String} {inverted : Bool} {span body : Span} {cs ns : List Node}
    (h : (sectionTag name inverted span body cs).Inside ns) {n : Node} (hn : n ∈ cs) :
    n.Inside ns := by
  induction h with
  | here hs => exact .deeper hs (.here hn)
  | deeper hs _ ih => exact .deeper hs ih

end Node

namespace Template

inductive Beside (t : Template) : List Node → Prop
  | outermost : Beside t t.nodes
  | children {name : String} {inverted : Bool} {span body : Span} {cs : List Node} :
      (Node.sectionTag name inverted span body cs).Inside t.nodes → Beside t cs

structure Placed (t : Template) : Prop where
  node : ∀ n : Node, n.Inside t.nodes → ∀ s ∈ n.spans, s.Fits t.source.toList
  problem : ∀ p ∈ t.problems, p.span.Fits t.source.toList
  marked : ∀ p ∈ t.problems, ∀ path level,
    (p.diagnostic path t.source level).marked = (p.span.start.toNat, p.span.stop.toNat)
  siblings : ∀ ns, t.Beside ns →
    ns.Pairwise fun m n => ∀ s ∈ m.spans, ∀ u ∈ n.spans, s.stop ≤ u.start
  children : ∀ name inverted span body cs,
    (Node.sectionTag name inverted span body cs).Inside t.nodes →
    ∀ n ∈ cs, ∀ s ∈ n.spans, s.Within body
  text : ∀ s span, (Node.text s span).Inside t.nodes →
    s.toList = without ((Problem.dropped t.problems).filter fun k => k.Within span)
      span.start.toNat (span.slice t.source.toList)

variable {d : Delimiters} {source : String}

theorem nodes_spaced (h : byteLength source.toList < 2 ^ 32) :
    Span.Spaced 0 ((parse d source).nodes.map Node.extent) (byteLength source.toList) :=
  Nesting.finish_spaced (squash_spaced h) h

/-- The children of a section stand between the ends of its body. -/
theorem children_spaced (h : byteLength source.toList < 2 ^ 32) {name : String} {inverted : Bool}
    {span body : Span} {cs : List Node}
    (hx : (Node.sectionTag name inverted span body cs).Inside (parse d source).nodes) :
    Span.Spaced body.start.toNat (cs.map Node.extent) body.stop.toNat := by
  -- the children are the outermost nodes of the body, so no second induction is needed
  obtain ⟨a, b, c, hsrc, rfl, rfl⟩ := section_alone h hx
  rw [hsrc, byteLength_append, byteLength_append] at h
  have hb : byteLength (String.ofList b).toList < 2 ^ 32 := by
    rw [String.toList_ofList]
    omega
  have hs := nodes_spaced (d := delimitersAt d source span) hb
  rw [String.toList_ofList] at hs
  have hm := hs.moved (k := byteLength a) (by omega)
  rw [Node.movedAll_extents, Span.start_toNat (by omega) (by omega),
    Span.stop_toNat (by omega) (by omega)]
  rwa [Nat.zero_add, Nat.add_comm (byteLength b)] at hm

theorem body_start (h : byteLength source.toList < 2 ^ 32) {name : String} {inverted : Bool}
    {span body : Span} {cs : List Node}
    (hx : (Node.sectionTag name inverted span body cs).Inside (parse d source).nodes) :
    body.start = span.stop := by
  obtain ⟨k, he, -⟩ := parse_ending h hx
  cases he with
  | own _ _ _ _ _ hb _ => exact hb
  | around _ _ _ _ _ _ hb _ => exact hb
  | source _ _ hb _ => exact hb

theorem spans_extent (h : byteLength source.toList < 2 ^ 32) {n : Node}
    (hx : n.Inside (parse d source).nodes) {s : Span} (hs : s ∈ n.spans) :
    s.Within n.extent := by
  cases n with
  | sectionTag name inverted span body cs =>
    have hb := body_start h hx
    have h1 : span.start ≤ body.start := by
      rw [hb]
      exact span.start_le_stop
    have h2 := body.start_le_stop
    have hle := UInt32.le_iff_toNat_le.1 (UInt32.le_trans h1 h2)
    have hstart : (Span.ofBounds span.start.toNat body.stop.toNat).start = span.start :=
      Span.clamp_self _
    have hstop : (Span.ofBounds span.start.toNat body.stop.toNat).stop = body.stop := by
      rw [Span.ofBounds_stop hle, Span.clamp_self]
    rw [Span.Within, Node.extent, hstart, hstop]
    rcases List.mem_pair.1 hs with rfl | rfl
    · exact ⟨UInt32.le_refl _, hb ▸ h2⟩
    · exact ⟨h1, UInt32.le_refl _⟩
  | text _ _ | variableTag _ _ _ | partialTag _ _ | comment _ _ =>
    rw [List.mem_singleton.1 hs]
    exact ⟨UInt32.le_refl _, UInt32.le_refl _⟩

theorem beside_inside {t : Template} {ns : List Node} (h : t.Beside ns) {n : Node} (hn : n ∈ ns) :
    n.Inside t.nodes := by
  cases h with
  | outermost => exact .here hn
  | children hs => exact hs.child hn

theorem beside_siblings (h : byteLength source.toList < 2 ^ 32) {ns : List Node}
    (hb : (parse d source).Beside ns) :
    ns.Pairwise fun m n => ∀ s ∈ m.spans, ∀ u ∈ n.spans, s.stop ≤ u.start := by
  have hp : (ns.map Node.extent).Pairwise fun s u => s.stop ≤ u.start := by
    cases hb with
    | outermost => exact (nodes_spaced h).pairwise
    | children hs => exact (children_spaced h hs).pairwise
  refine (List.pairwise_map.1 hp).imp_of_mem fun hm hn hle s hs u hu => ?_
  have h1 := (spans_extent h (beside_inside hb hm) hs).2
  have h2 := (spans_extent h (beside_inside hb hn) hu).1
  exact UInt32.le_trans h1 (UInt32.le_trans hle h2)

theorem tagToken_mem {n : Node} (hx : n.Inside (parse d source).nodes) :
    n.tagToken ∈ Token.squash (tokens d source) := by
  have hpre : Node.preorderAll (parse d source).nodes =
      (Token.squash (tokens d source)).filter Token.hasNode := Nesting.finish_preorder _ _
  have hm := hx.tagToken_mem
  rw [hpre] at hm
  exact (List.mem_filter.1 hm).1

theorem token_fits (h : byteLength source.toList < 2 ^ 32) {t : Token}
    (ht : t ∈ Token.squash (tokens d source)) : t.span.Fits source.toList := by
  obtain ⟨a, m, z, hsrc, hspan, -⟩ := (squash_covers h).mem ht
  rw [hspan, Nat.zero_add]
  exact .ofBounds hsrc h

theorem spans_fit (h : byteLength source.toList < 2 ^ 32) {n : Node}
    (hx : n.Inside (parse d source).nodes) {s : Span} (hs : s ∈ n.spans) :
    s.Fits source.toList := by
  have htag := token_fits h (tagToken_mem hx)
  cases n with
  | sectionTag name inverted span body cs =>
    rcases List.mem_pair.1 hs with rfl | rfl
    · exact htag
    · obtain ⟨a, b, c, hsrc, rfl, -⟩ := section_alone h hx
      exact .ofBounds hsrc h
  | text _ _ | variableTag _ _ _ | partialTag _ _ | comment _ _ =>
    rw [List.mem_singleton.1 hs]
    exact htag

theorem tag_problem_fits (h : byteLength source.toList < 2 ^ 32) {p : Problem}
    (hp : p ∈ Lexeme.problems (lexemes d source)) : p.span.Fits source.toList := by
  rcases Cursor.problem_cases (c := ⟨d, 0, source.toList⟩) hp with
    ⟨u, ls, c, v, c', hrun, hstep⟩ | ⟨u, ls, c, e, sp, hrun, hstop, rfl⟩
  · obtain ⟨h1, hpos⟩ := hrun.start
    obtain ⟨h3, h4, -⟩ := hstep.rest
    have hspan : p.span = .ofBounds c.pos c'.pos :=
      p.dropped?_span ((Lexeme.tile_problem p).symm.trans hstep.tile)
    rw [hspan, h4, hpos]
    exact .ofBounds (z := c'.rest) (by rw [← h3]; exact h1) h
  · obtain ⟨h1, hpos⟩ := hrun.start
    obtain ⟨v, r, hv, -, rfl⟩ := hstop.unclosed_text
    rw [Problem.span, hpos]
    exact .ofBounds (z := r) (by rw [h1, hv]) h

theorem problem_fits (h : byteLength source.toList < 2 ^ 32) {p : Problem}
    (hp : p ∈ (parse d source).problems) : p.span.Fits source.toList := by
  rcases List.mem_append.1 hp with hp | hp
  · exact tag_problem_fits h hp
  · obtain ⟨t, ht, rfl | rfl⟩ := Nesting.finish_reports hp
    · exact token_fits h ht
    · exact token_fits h ht

theorem dropped_problems :
    Problem.dropped (parse d source).problems = Lexeme.dropped (lexemes d source) := by
  have hnest : Problem.dropped (nest source (Token.squash (tokens d source))).problems = [] := by
    refine List.filterMap_eq_nil_iff.2 fun p hp => ?_
    obtain ⟨t, -, rfl | rfl⟩ := Nesting.finish_reports hp <;> rfl
  rw [parse, Problem.dropped, List.filterMap_append]
  exact (congrArg _ hnest).trans (List.append_nil _)

theorem text_kept (h : byteLength source.toList < 2 ^ 32) {s : String} {span : Span}
    (hx : (Node.text s span).Inside (parse d source).nodes) :
    s.toList = without ((Problem.dropped (parse d source).problems).filter fun k => k.Within span)
      span.start.toNat (span.slice source.toList) := by
  obtain ⟨a, m, z, hsrc, hspan, hm⟩ := (squash_covers h).mem (tagToken_mem hx)
  rw [Nat.zero_add] at hspan hm
  obtain rfl : span = _ := hspan
  have hkept := hm rfl
  rw [hsrc, byteLength_append, byteLength_append] at h
  have hstart := Span.start_toNat (Nat.le_add_right (byteLength a) (byteLength m)) (by omega)
  have hstop := Span.stop_toNat (Nat.le_add_right (byteLength a) (byteLength m)) (by omega)
  rw [dropped_problems, hstart, hsrc, Span.slice_ofBounds a m z (by omega)]
  exact (hkept.within hstart hstop).symm

end Template

open Template in
/-- Whatever the delimiters, the positions that parsing reports can be used as they are. -/
theorem parse_placed (d : Delimiters) (source : String) (h : byteLength source.toList < 2 ^ 32) :
    Placed (parse d source) where
  node _ hx _ hs := spans_fit h hx hs
  problem _ hp := problem_fits h hp
  marked _ hp _ _ := Diagnostic.marked_eq (problem_fits h hp).stop_le
  siblings _ hb := beside_siblings h hb
  children := by
    intro name inverted span body cs hx n hn s hs
    have hext := spans_extent h (hx.child hn) hs
    obtain ⟨h1, -, h2⟩ := (children_spaced h hx).bounds (List.mem_map_of_mem hn)
    exact ⟨UInt32.le_trans (UInt32.le_iff_toNat_le.2 h1) hext.1,
      UInt32.le_trans hext.2 (UInt32.le_iff_toNat_le.2 h2)⟩
  text _ _ hx := text_kept h hx

/-- Crossing sections and text of several bytes a character that goes on behind a tag
without a name and behind delimiters that are none. -/
theorem parse_placed_crossing :
    byteLength "é[#a]ü[]ñ[=x=]ø[#b][/a][/b][c".toList < 2 ^ 32 ∧
    Template.Placed (Template.parse ⟨"[", "]"⟩ "é[#a]ü[]ñ[=x=]ø[#b][/a][/b][c") :=
  ⟨by decide +kernel, parse_placed _ _ (by decide +kernel)⟩

example : (Template.parse ⟨"[", "]"⟩ "ü[]ñ[=x=]ø").nodes = [.text "üñø" ⟨0, 13⟩] := by
  decide +kernel

end Stencil
