import Stencil.Template.Parse
import Mathlib.Data.List.Induction
import Mathlib.Data.List.TakeWhile

/-!
# Open sections and what becomes of them

The open sections of a tree under construction each hold a tree of their own:
that of the tokens behind their tag. A close tag turns the sections it ends into
one node. So the children of a finished section are what its tokens nest to
alone, wherever the section stands and whatever ended it.
-/

set_option autoImplicit false

namespace Stencil

inductive Node.Inside : Node → List Node → Prop
  | here {n : Node} {ns : List Node} : n ∈ ns → Inside n ns
  | deeper {n : Node} {name : String} {inverted : Bool} {span body : Span}
      {cs ns : List Node} : .sectionTag name inverted span body cs ∈ ns → Inside n cs →
      Inside n ns

theorem split_named {α : Type} (f : α → String) (name : String) (xs : List α) :
    (∀ x ∈ xs, f x ≠ name) ∨
      ∃ inner m outer, xs = inner ++ m :: outer ∧ (∀ x ∈ inner, f x ≠ name) ∧ f m = name := by
  induction xs with
  | nil => simp
  | cons o xs ih =>
    by_cases ho : f o = name
    · exact .inr ⟨[], o, xs, rfl, by simp, ho⟩
    · rcases ih with h | ⟨inner, m, outer, rfl, hi, hm⟩
      · exact .inl (by simpa using ⟨ho, h⟩)
      · exact .inr ⟨o :: inner, m, outer, rfl, by simpa using ⟨ho, hi⟩, hm⟩

theorem split_last {α : Type} {xs ys zs : List α} {m o : α} (h : xs ++ [m] = ys ++ o :: zs) :
    ∃ ws, xs = ys ++ ws ∧ o :: zs = ws ++ [m] := by
  obtain ⟨ws, x, hw⟩ := (List.eq_nil_or_concat (o :: zs)).resolve_left (by simp)
  rw [List.concat_eq_append] at hw
  rw [hw, ← List.append_assoc] at h
  obtain ⟨hx, hm⟩ := List.append_inj' h rfl
  exact ⟨ws, hx, by rw [hw, hm]⟩

namespace Token

/-- The open section tags behind a token, innermost first, `os` before it. -/
def openBehind (os : List Token) (t : Token) : List Token :=
  if t.kind.opensSection then t :: os
  else if t.kind = .close then
    match os.dropWhile (·.value != t.value) with
    | [] => os
    | _ :: outer => outer
  else os

def openAfter (ts : List Token) : List Token := ts.foldl openBehind []

theorem openAfter_snoc (ts : List Token) (t : Token) :
    openAfter (ts ++ [t]) = openBehind (openAfter ts) t := by
  simp [openAfter]

theorem openBehind_opens {os : List Token} {t : Token} (h : t.kind.opensSection) :
    openBehind os t = t :: os := by
  rw [openBehind, if_pos h]

theorem openBehind_matched {os inner outer : List Token} {t m : Token} (hc : t.kind = .close)
    (h : os = inner ++ m :: outer) (hi : ∀ x ∈ inner, x.value ≠ t.value)
    (hm : m.value = t.value) : openBehind os t = outer := by
  have hd : os.dropWhile (·.value != t.value) = m :: outer := by
    rw [h, List.dropWhile_append_of_pos (by simpa using hi), List.dropWhile_cons_of_neg (by simp [hm])]
  simp [openBehind, hc, TokenKind.opensSection, hd]

theorem openBehind_unmatched {os : List Token} {t : Token} (hc : t.kind = .close)
    (h : ∀ x ∈ os, x.value ≠ t.value) : openBehind os t = os := by
  have hd : os.dropWhile (·.value != t.value) = [] := List.dropWhile_eq_nil_iff.2 (by simpa using h)
  simp [openBehind, hc, TokenKind.opensSection, hd]

theorem openBehind_other {os : List Token} {t : Token} (h : ¬ t.kind.opensSection)
    (hc : t.kind ≠ .close) : openBehind os t = os := by
  rw [openBehind, if_neg h, if_neg hc]

def leaves (t : Token) : List Node :=
  match t.kind with
  | .text => [.text t.value t.span]
  | .name => [.variableTag t.value true t.span]
  | .unescaped => [.variableTag t.value false t.span]
  | .partialTag => [.partialTag t.value t.span]
  | .comment => [.comment t.value t.span]
  | .sectionStart | .invertedStart | .close | .setDelimiters => []

end Token

def Node.children : Node → List Node
  | .sectionTag _ _ _ _ cs => cs
  | _ => []

def Node.IsSection : Node → Prop
  | .sectionTag .. => True
  | _ => False

namespace Node.Inside

theorem append {x : Node} {ns ms : List Node} :
    x.Inside (ns ++ ms) ↔ x.Inside ns ∨ x.Inside ms := by
  constructor
  · rintro (h | ⟨h, hx⟩)
    · exact (List.mem_append.1 h).imp .here .here
    · exact (List.mem_append.1 h).imp (.deeper · hx) (.deeper · hx)
  · rintro ((h | ⟨h, hx⟩) | (h | ⟨h, hx⟩))
    · exact .here (by simp [h])
    · exact .deeper (List.mem_append_left _ h) hx
    · exact .here (by simp [h])
    · exact .deeper (List.mem_append_right _ h) hx

theorem nil {x : Node} : ¬ x.Inside [] := by
  rintro (h | ⟨h, -⟩) <;> cases h

theorem cons {x n : Node} {ns : List Node} :
    x.Inside (n :: ns) ↔ x = n ∨ x.Inside n.children ∨ x.Inside ns := by
  constructor
  · rintro (h | ⟨h, hx⟩)
    · exact (List.mem_cons.1 h).imp id fun h => .inr (.here h)
    · rcases List.mem_cons.1 h with rfl | h
      · exact .inr (.inl hx)
      · exact .inr (.inr (.deeper h hx))
  · rintro (rfl | h | h)
    · exact .here (List.mem_cons_self ..)
    · cases n with
      | sectionTag name inverted span body cs => exact .deeper (List.mem_cons_self ..) h
      | _ => exact absurd h nil
    · exact (append.2 (.inr h) : x.Inside ([n] ++ ns))

theorem single {x y : Node} (h : x.Inside [y]) :
    x = y ∨ ∃ name inverted span body cs, y = .sectionTag name inverted span body cs ∧
      x.Inside cs := by
  rcases h with h | ⟨h, hx⟩
  · exact .inl (List.mem_singleton.1 h)
  · exact .inr ⟨_, _, _, _, _, (List.mem_singleton.1 h).symm, hx⟩

theorem leaf {x : Node} {t : Token} (hx : x.IsSection) : ¬ x.Inside t.leaves := by
  intro h
  obtain ⟨kind, value, s⟩ := t
  cases kind <;> rcases h with h | ⟨h, -⟩ <;> simp [Token.leaves] at h
  all_goals
    rw [h] at hx
    exact hx

end Node.Inside

namespace OpenSection

def tag (o : OpenSection) : Token :=
  ⟨if o.inverted then .invertedStart else .sectionStart, o.name, o.span⟩

def ofTag (t : Token) : OpenSection := ⟨t.value, t.kind == .invertedStart, t.span, []⟩

def grow (o : OpenSection) (ns : List Node) : OpenSection := { o with children := o.children ++ ns }

/-- Sections that end at byte `stop`, innermost first, each the last child of the
next. The nodes `ns` stand at the end of the innermost one. -/
def collapse (stop : Nat) : List Node → List OpenSection → List Node
  | ns, [] => ns
  | ns, o :: os => collapse stop [(o.grow ns).finish stop] os

@[simp] theorem grow_nil (o : OpenSection) : o.grow [] = o := by simp [grow]

@[simp] theorem grow_name (o : OpenSection) (ns : List Node) : (o.grow ns).name = o.name := rfl

@[simp] theorem grow_tag (o : OpenSection) (ns : List Node) : (o.grow ns).tag = o.tag := rfl

@[simp] theorem grow_children (o : OpenSection) (ns : List Node) :
    (o.grow ns).children = o.children ++ ns := rfl

@[simp] theorem grow_unclosed (o : OpenSection) (ns : List Node) :
    (o.grow ns).unclosed = o.unclosed := rfl

theorem grow_grow (o : OpenSection) (ns ms : List Node) :
    (o.grow ns).grow ms = o.grow (ns ++ ms) := by
  simp [grow]

theorem tag_opens (o : OpenSection) : o.tag.kind.opensSection := by
  cases h : o.inverted <;> simp [tag, h, TokenKind.opensSection]

theorem tag_ofTag {t : Token} (h : t.kind.opensSection) : (ofTag t).tag = t := by
  obtain ⟨kind, value, span⟩ := t
  cases kind <;> first | rfl | cases h

theorem collapse_snoc (stop : Nat) (ns : List Node) (os : List OpenSection) (o : OpenSection) :
    collapse stop ns (os ++ [o]) = [(o.grow (collapse stop ns os)).finish stop] := by
  induction os generalizing ns with
  | nil => rfl
  | cons p os ih => exact ih _

end OpenSection

open OpenSection

namespace Nesting

def insertAll (n : Nesting) (ns : List Node) : Nesting :=
  match n.opened with
  | [] => { n with root := n.root ++ ns }
  | o :: os => { n with opened := o.grow ns :: os }

theorem insert_eq (n : Nesting) (x : Node) : n.insert x = n.insertAll [x] := rfl

theorem insertAll_nil (n : Nesting) : n.insertAll [] = n := by
  obtain ⟨_ | ⟨o, os⟩, root, problems⟩ := n <;> simp [insertAll]

theorem insertAll_insertAll (n : Nesting) (ns ms : List Node) :
    (n.insertAll ns).insertAll ms = n.insertAll (ns ++ ms) := by
  obtain ⟨_ | ⟨o, os⟩, root, problems⟩ := n <;> simp [insertAll, grow_grow]

def run (ts : List Token) : Nesting := ts.foldl step {}

theorem run_snoc (ts : List Token) (t : Token) : run (ts ++ [t]) = step (run ts) t := by
  simp [run]

theorem finishTo_cons (ends : String → Bool) (stop : Nat) (n : Nesting) (o p : OpenSection)
    (ns : List Node) (ps : List OpenSection) :
    finishTo ends stop n (o.grow ns) (p :: ps) =
      if ends o.name then { n with opened := p.grow [(o.grow ns).finish stop] :: ps }
      else finishTo ends stop (n.record o.unclosed) (p.grow [(o.grow ns).finish stop]) ps := rfl

/-- The sections up to the first one `ends` picks end in one node, a problem for
each but that one. -/
theorem finishTo_matched {ends : String → Bool} {stop : Nat} {n : Nesting} {o m : OpenSection}
    {os inner outer : List OpenSection} {ns : List Node} (h : o :: os = inner ++ m :: outer)
    (hi : ∀ x ∈ inner, ends x.name = false) (hm : ends m.name = true) :
    finishTo ends stop n (o.grow ns) os =
      insertAll ⟨outer, n.root, n.problems ++ inner.map unclosed⟩
        (collapse stop ns (inner ++ [m])) := by
  induction inner generalizing n o os ns with
  | nil =>
    obtain ⟨rfl, rfl⟩ : o = m ∧ os = outer := by simpa using h
    cases os with
    | nil => simp [finishTo, hm, insertAll, collapse]
    | cons p ps => simp [finishTo, hm, insertAll, collapse, grow]
  | cons x inner ih =>
    obtain ⟨rfl, hr⟩ : o = x ∧ os = inner ++ m :: outer := by simpa using h
    have ho : ends o.name = false := hi o (by simp)
    cases os with
    | nil => simp at hr
    | cons p ps =>
      rw [finishTo_cons, if_neg (by simp [ho]), ih hr fun x hx => hi x (by simp [hx])]
      simp [record, collapse]

theorem finishTo_unmatched {ends : String → Bool} {stop : Nat} {n : Nesting} {o : OpenSection}
    {os : List OpenSection} {ns : List Node} (h : ∀ x ∈ o :: os, ends x.name = false) :
    finishTo ends stop n (o.grow ns) os =
      ⟨[], n.root ++ collapse stop ns (o :: os), n.problems ++ (o :: os).map unclosed⟩ := by
  induction os generalizing n o ns with
  | nil => simp [finishTo, h o, record, collapse]
  | cons p ps ih =>
    have ho : ends o.name = false := h o (by simp)
    rw [finishTo_cons, if_neg (by simp [ho]), ih fun x hx => h x (by simp [List.mem_cons.1 hx])]
    simp [record, collapse]

theorem finish_eq (n : Nesting) (stop : Nat) :
    n.finish stop =
      ⟨[], n.root ++ collapse stop [] n.opened, n.problems ++ n.opened.map unclosed⟩ := by
  obtain ⟨_ | ⟨o, os⟩, root, problems⟩ := n
  · simp [finish, collapse]
  · have h := @finishTo_unmatched (fun _ => false) stop ⟨o :: os, root, problems⟩ o os []
    simpa [finish] using h (by simp)

theorem close_matched {t : Token} {n : Nesting} {m : OpenSection}
    {inner outer : List OpenSection} (h : n.opened = inner ++ m :: outer)
    (hi : ∀ x ∈ inner, x.name ≠ t.value) (hm : m.name = t.value) :
    n.close t =
      insertAll ⟨outer, n.root, n.problems ++ inner.map unclosed⟩
        (collapse t.span.start.toNat [] (inner ++ [m])) := by
  obtain ⟨_ | ⟨o, os⟩, root, problems⟩ := n
  · simp at h
  · have hany : (o :: os).any (·.name == t.value) = true := by
      rw [show o :: os = inner ++ m :: outer from h]
      simp [hm]
    have hf := @finishTo_matched (· == t.value) t.span.start.toNat ⟨o :: os, root, problems⟩ o m os
      inner outer [] h (by simpa using hi) (by simpa using hm)
    simpa [close, hany] using hf

theorem close_unmatched {t : Token} {n : Nesting} (h : ∀ x ∈ n.opened, x.name ≠ t.value) :
    n.close t = n.record (.unmatchedClose t.value t.span) := by
  obtain ⟨_ | ⟨o, os⟩, root, problems⟩ := n
  · rfl
  · have : (o :: os).any (·.name == t.value) = false := by simpa using h
    simp [close, this]

/-! ## The tokens behind an open tag -/

theorem step_opens (n : Nesting) {t : Token} (h : t.kind.opensSection) :
    step n t = { n with opened := .ofTag t :: n.opened } := by
  obtain ⟨kind, value, span⟩ := t
  cases kind <;> first | rfl | cases h

theorem step_close (n : Nesting) {t : Token} (h : t.kind = .close) : step n t = n.close t := by
  rw [step, h]

/-- A token that opens and closes nothing adds its node, if it has one. -/
theorem step_adds (n : Nesting) {t : Token} (h : ¬ t.kind.opensSection) (hc : t.kind ≠ .close) :
    step n t = n.insertAll t.leaves := by
  obtain ⟨kind, value, span⟩ := t
  cases kind with
  | sectionStart => exact absurd rfl h
  | invertedStart => exact absurd rfl h
  | close => exact absurd rfl hc
  | setDelimiters =>
    obtain ⟨_ | ⟨o, os⟩, root, problems⟩ := n <;> simp [step, insertAll, Token.leaves]
  | text => exact insert_eq n _
  | name => exact insert_eq n _
  | unescaped => exact insert_eq n _
  | partialTag => exact insert_eq n _
  | comment => exact insert_eq n _

def within (outer : Nesting) (o : OpenSection) (loc : Nesting) : Nesting :=
  ⟨loc.opened ++ o.grow loc.root :: outer.opened, outer.root, outer.problems ++ loc.problems⟩

theorem within_insertAll (outer : Nesting) (o : OpenSection) (loc : Nesting) (ns : List Node) :
    (outer.within o loc).insertAll ns = outer.within o (loc.insertAll ns) := by
  obtain ⟨_ | ⟨p, ps⟩, root, problems⟩ := loc <;> simp [within, insertAll, grow_grow]

/-- A token that does not end the section of `o` acts inside it. -/
theorem step_within {outer loc : Nesting} {o : OpenSection} {t : Token}
    (h : t.kind = .close → (∃ x ∈ loc.opened, x.name = t.value) ∨
      ∀ x ∈ loc.opened ++ o :: outer.opened, x.name ≠ t.value) :
    step (outer.within o loc) t = outer.within o (step loc t) := by
  by_cases hk : t.kind.opensSection
  · rw [step_opens _ hk, step_opens _ hk]
    rfl
  by_cases hc : t.kind = .close
  · rw [step_close _ hc, step_close _ hc]
    rcases h hc with ⟨x, hx, hxt⟩ | hn
    · rcases split_named OpenSection.name t.value loc.opened with hn | ⟨inner, m, outer', hl, hi, hm⟩
      · exact absurd hxt (hn x hx)
      · have hw : (outer.within o loc).opened =
            inner ++ m :: (outer' ++ o.grow loc.root :: outer.opened) := by simp [within, hl]
        rw [close_matched hw hi hm, close_matched hl hi hm, ← within_insertAll]
        simp [within]
    · have hl : ∀ x ∈ loc.opened, x.name ≠ t.value := fun x hx => hn x (by simp [hx])
      have hw : ∀ x ∈ (outer.within o loc).opened, x.name ≠ t.value := by
        intro x hx
        rcases List.mem_append.1 hx with hx | hx
        · exact hl x hx
        · rcases List.mem_cons.1 hx with rfl | hx
          · exact hn o (by simp)
          · exact hn x (by simp [hx])
      rw [close_unmatched hw, close_unmatched hl]
      simp [within, record]
  · rw [step_adds _ hk hc, step_adds _ hk hc, within_insertAll]

theorem insertAll_opened {n : Nesting} {ns : List Node} {inner outer : List OpenSection}
    {o : OpenSection} (h : (n.insertAll ns).opened = inner ++ o :: outer) :
    ∃ inner' o', n.opened = inner' ++ o' :: outer ∧ o'.tag = o.tag := by
  obtain ⟨_ | ⟨p, ps⟩, root, problems⟩ := n
  · simp [insertAll] at h
  · cases inner with
    | nil =>
      obtain ⟨rfl, rfl⟩ : p.grow ns = o ∧ ps = outer := by simpa [insertAll] using h
      exact ⟨[], p, rfl, rfl⟩
    | cons x inner =>
      obtain ⟨-, rfl⟩ : p.grow ns = x ∧ ps = inner ++ o :: outer := by simpa [insertAll] using h
      exact ⟨p :: inner, o, rfl, rfl⟩

/-- A section that is open behind a token was open before it and the token did not
end it, unless the token opened it. -/
theorem step_opened {n : Nesting} {t : Token} {inner outer : List OpenSection} {o : OpenSection}
    (h : (step n t).opened = inner ++ o :: outer) :
    (t.kind.opensSection ∧ inner = [] ∧ o = .ofTag t ∧ outer = n.opened) ∨
    ∃ inner' o', n.opened = inner' ++ o' :: outer ∧ o'.tag = o.tag ∧
      (t.kind = .close → (∃ x ∈ inner', x.name = t.value) ∨
        ∀ x ∈ inner' ++ o' :: outer, x.name ≠ t.value) := by
  by_cases hk : t.kind.opensSection
  · rw [step_opens _ hk] at h
    cases inner with
    | nil =>
      obtain ⟨rfl, rfl⟩ : ofTag t = o ∧ n.opened = outer := by simpa using h
      exact .inl ⟨hk, rfl, rfl, rfl⟩
    | cons x inner =>
      obtain ⟨-, hn⟩ : ofTag t = x ∧ n.opened = inner ++ o :: outer := by simpa using h
      refine .inr ⟨inner, o, hn, rfl, fun hc => ?_⟩
      rw [hc] at hk
      cases hk
  by_cases hc : t.kind = .close
  · rw [step_close _ hc] at h
    rcases split_named OpenSection.name t.value n.opened with hn | ⟨i, m, rest, hl, hi, hm⟩
    · rw [close_unmatched hn] at h
      refine .inr ⟨inner, o, h, rfl, fun _ => .inr ?_⟩
      rw [← show n.opened = inner ++ o :: outer from h]
      exact hn
    · rw [close_matched hl hi hm] at h
      obtain ⟨inner', o', hr, ht⟩ := insertAll_opened h
      obtain rfl : rest = inner' ++ o' :: outer := hr
      exact .inr ⟨i ++ m :: inner', o', by simp [hl], ht, fun _ => .inl ⟨m, by simp, hm⟩⟩
  · rw [step_adds _ hk hc] at h
    obtain ⟨inner', o', hl, ht⟩ := insertAll_opened h
    exact .inr ⟨inner', o', hl, ht, fun h => absurd h hc⟩

/-- An open section and the tokens behind its tag: they nest inside it as they do alone. -/
theorem run_opened {ts : List Token} {inner outer : List OpenSection} {o : OpenSection}
    (h : (run ts).opened = inner ++ o :: outer) :
    ∃ before inside, ts = before ++ o.tag :: inside ∧
      run ts = (run before).within (.ofTag o.tag) (run inside) ∧
      (run inside).opened = inner ∧ (run before).opened = outer ∧
      o = (ofTag o.tag).grow (run inside).root := by
  induction ts using List.reverseRecOn generalizing inner o with
  | nil => simp [run] at h
  | append_singleton ts t ih =>
    rw [run_snoc] at h
    rcases step_opened h with ⟨hk, rfl, rfl, rfl⟩ | ⟨inner', o', hl, ht, hc⟩
    · refine ⟨ts, [], by rw [tag_ofTag hk], ?_, rfl, rfl, ?_⟩
      · rw [run_snoc, step_opens _ hk, tag_ofTag hk]
        simp [within, run]
      · simp [tag_ofTag hk, run]
    · obtain ⟨before, inside, rfl, hw, hi, ho, -⟩ := ih hl
      rw [ht] at hw h ⊢
      have hs : run (before ++ o.tag :: inside ++ [t]) =
          (run before).within (.ofTag o.tag) (run (inside ++ [t])) := by
        rw [run_snoc, hw, run_snoc]
        refine step_within fun hk => ?_
        have hv : (ofTag o.tag).name = o'.name := by rw [← ht]; rfl
        rw [hi, ho]
        refine (hc hk).imp id fun hn x hx => ?_
        rcases List.mem_append.1 hx with hx | hx
        · exact hn x (by simp [hx])
        · rcases List.mem_cons.1 hx with rfl | hx
          · rw [hv]
            exact hn o' (by simp)
          · exact hn x (by simp [hx])
      have hopen : (run (inside ++ [t])).opened ++
          (ofTag o.tag).grow (run (inside ++ [t])).root :: outer = inner ++ o :: outer := by
        rw [← h, ← run_snoc, hs, ← ho]
        rfl
      obtain ⟨rfl, he⟩ := List.append_inj' hopen rfl
      exact ⟨before, inside ++ [t], by simp, hs, rfl, ho, ((List.cons.inj he).1).symm⟩

theorem insertAll_tags (n : Nesting) (ns : List Node) :
    (n.insertAll ns).opened.map tag = n.opened.map tag := by
  obtain ⟨_ | ⟨o, os⟩, root, problems⟩ := n <;> rfl

theorem step_tags (n : Nesting) (t : Token) :
    (step n t).opened.map tag = Token.openBehind (n.opened.map tag) t := by
  by_cases hk : t.kind.opensSection
  · simp [step_opens _ hk, Token.openBehind_opens hk, tag_ofTag hk]
  by_cases hc : t.kind = .close
  · rw [step_close _ hc]
    rcases split_named OpenSection.name t.value n.opened with hn | ⟨inner, m, outer, hl, hi, hm⟩
    · rw [close_unmatched hn, Token.openBehind_unmatched hc (by simpa [tag] using hn)]
      rfl
    · rw [close_matched hl hi hm, insertAll_tags]
      have hs : n.opened.map tag = inner.map tag ++ m.tag :: outer.map tag := by simp [hl]
      exact (Token.openBehind_matched hc hs (by simpa [tag] using hi) hm).symm
  · rw [step_adds _ hk hc, insertAll_tags, Token.openBehind_other hk hc]

theorem run_tags (ts : List Token) : (run ts).opened.map tag = Token.openAfter ts := by
  induction ts using List.reverseRecOn with
  | nil => rfl
  | append_singleton ts t ih => rw [run_snoc, step_tags, ih, Token.openAfter_snoc]

/-! ## Finished sections -/

def sectionOf (t : Token) (inside : List Token) (stop : Nat) : Node :=
  ((ofTag t).grow ((run inside).finish stop).root).finish stop

theorem collapse_inside {stop : Nat} {x : Node} {os : List OpenSection}
    (h : x.Inside (collapse stop [] os)) :
    ∃ inner o outer, os = inner ++ o :: outer ∧
      (x = (o.grow (collapse stop [] inner)).finish stop ∨ x.Inside o.children) := by
  induction os using List.reverseRecOn with
  | nil => exact absurd h Node.Inside.nil
  | append_singleton os o ih =>
    rw [collapse_snoc] at h
    rcases h.single with rfl | ⟨name, inverted, span, body, cs, he, hx⟩
    · exact ⟨os, o, [], rfl, .inl rfl⟩
    · obtain rfl : o.children ++ collapse stop [] os = cs := by
        injection he
      rcases Node.Inside.append.1 hx with hx | hx
      · exact ⟨os, o, [], rfl, .inr hx⟩
      · obtain ⟨inner, p, outer, rfl, hp⟩ := ih hx
        exact ⟨inner, p, outer ++ [o], by simp, hp⟩

/-- An open section as it ends at byte `stop`, with the sections open inside it. -/
theorem finish_opened {ts : List Token} {inner outer : List OpenSection} {o : OpenSection}
    (h : (run ts).opened = inner ++ o :: outer) :
    ∃ before inside, ts = before ++ o.tag :: inside ∧ (run before).opened = outer ∧
      ∀ stop, (o.grow (collapse stop [] inner)).finish stop = sectionOf o.tag inside stop := by
  obtain ⟨before, inside, rfl, -, hi, ho, he⟩ := run_opened h
  refine ⟨before, inside, rfl, ho, fun stop => ?_⟩
  rw [sectionOf, finish_eq, hi, ← grow_grow, ← he]

/-- A section that the close tag `c` ended: the innermost one of its name is this one
or one around it. The body ends where `c` starts. -/
inductive Closed (ts : List Token) : Node → Prop
  | mk {before inside after inner : List Token} {t c : Token} :
      ts = before ++ t :: (inside ++ c :: after) → t.kind.opensSection → c.kind = .close →
      Token.openAfter (before ++ t :: inside) = inner ++ t :: Token.openAfter before →
      (∀ x ∈ inner, x.value ≠ c.value) →
      (∃ x ∈ t :: Token.openAfter before, x.value = c.value) →
      Closed ts (sectionOf t inside c.span.start.toNat)

inductive AtEnd (ts : List Token) (stop : Nat) : Node → Prop
  | mk {before inside inner : List Token} {t : Token} :
      ts = before ++ t :: inside → t.kind.opensSection →
      Token.openAfter ts = inner ++ t :: Token.openAfter before →
      AtEnd ts stop (sectionOf t inside stop)

theorem Closed.extend {ts : List Token} {x : Node} (h : Closed ts x) (us : List Token) :
    Closed (ts ++ us) x := by
  cases h with
  | @mk before inside after inner t c hts ht hc ho hi hm =>
    have hs : ts ++ us = before ++ t :: (inside ++ c :: (after ++ us)) := by simp [hts]
    exact .mk hs ht hc ho hi hm

def Holds (n : Nesting) (x : Node) : Prop := x.Inside n.root ∨ ∃ o ∈ n.opened, x.Inside o.children

theorem Holds.insertAll {n : Nesting} {ns : List Node} {x : Node} (h : (n.insertAll ns).Holds x) :
    n.Holds x ∨ x.Inside ns := by
  obtain ⟨_ | ⟨o, os⟩, root, problems⟩ := n
  · rcases h with h | ⟨p, hp, -⟩
    · exact (Node.Inside.append.1 h).imp .inl id
    · cases hp
  · rcases h with h | ⟨p, hp, h⟩
    · exact .inl (.inl h)
    · rcases List.mem_cons.1 hp with rfl | hp
      · exact (Node.Inside.append.1 h).imp (fun h => .inr ⟨o, by simp, h⟩) id
      · exact .inl (.inr ⟨p, List.mem_cons_of_mem _ hp, h⟩)

theorem run_closed {ts : List Token} {x : Node} (hx : x.IsSection) (h : (run ts).Holds x) :
    Closed ts x := by
  induction ts using List.reverseRecOn with
  | nil =>
    rcases h with h | ⟨o, ho, -⟩
    · exact absurd h Node.Inside.nil
    · cases ho
  | append_singleton ts t ih =>
    rw [run_snoc] at h
    by_cases hk : t.kind.opensSection
    · rw [step_opens _ hk] at h
      refine (ih ?_).extend _
      rcases h with h | ⟨o, ho, h⟩
      · exact .inl h
      · rcases List.mem_cons.1 ho with rfl | ho
        · exact absurd h Node.Inside.nil
        · exact .inr ⟨o, ho, h⟩
    by_cases hc : t.kind = .close
    · rw [step_close _ hc] at h
      rcases split_named OpenSection.name t.value (run ts).opened with
        hn | ⟨inner, m, outer, hl, hi, hm⟩
      · rw [close_unmatched hn] at h
        exact (ih h).extend _
      · rw [close_matched hl hi hm] at h
        rcases h.insertAll with (h | ⟨o, ho, h⟩) | h
        · exact (ih (.inl h)).extend _
        · exact (ih (.inr ⟨o, by simp [hl, show o ∈ outer from ho], h⟩)).extend _
        · obtain ⟨i, o, r, hs, hend⟩ := collapse_inside h
          have ho : (run ts).opened = i ++ o :: (r ++ outer) := by
            rw [hl, List.append_cons, hs]
            simp
          rcases hend with rfl | hin
          · obtain ⟨before, inside, rfl, hb, hf⟩ := finish_opened ho
            rw [hf]
            obtain ⟨y, rfl, hy⟩ := split_last hs
            have hs : before ++ o.tag :: inside ++ [t] = before ++ o.tag :: (inside ++ t :: []) := by
              simp
            have hopen : Token.openAfter (before ++ o.tag :: inside) =
                i.map tag ++ o.tag :: Token.openAfter before := by
              rw [← run_tags, ← run_tags, ho, hb]
              simp
            refine .mk hs o.tag_opens hc hopen ?_ ⟨m.tag, ?_, hm⟩
            · simpa [tag] using fun x hx => hi x (List.mem_append_left _ hx)
            · rw [← run_tags, hb, List.map_append, ← List.cons_append, ← List.map_cons, hy]
              simp
          · exact (ih (.inr ⟨o, by simp [ho], hin⟩)).extend _
    · rw [step_adds _ hk hc] at h
      exact (ih (h.insertAll.resolve_right (Node.Inside.leaf hx))).extend _

/-- What ends a section: a close tag, its own or one of a section around it, or else
the end of the source. -/
theorem finished_section {ts : List Token} {stop : Nat} {x : Node} (hx : x.IsSection)
    (h : x.Inside ((run ts).finish stop).root) : Closed ts x ∨ AtEnd ts stop x := by
  rw [finish_eq] at h
  rcases Node.Inside.append.1 h with h | h
  · exact .inl (run_closed hx (.inl h))
  · obtain ⟨inner, o, outer, ho, hend⟩ := collapse_inside h
    rcases hend with rfl | hin
    · obtain ⟨before, inside, rfl, hb, hf⟩ := finish_opened ho
      rw [hf]
      have hopen : Token.openAfter (before ++ o.tag :: inside) =
          inner.map tag ++ o.tag :: Token.openAfter before := by
        rw [← run_tags, ← run_tags, ho, hb]
        simp
      exact .inr (.mk rfl o.tag_opens hopen)
    · exact .inl (run_closed hx (.inr ⟨o, by simp [ho], hin⟩))

end Nesting

end Stencil
