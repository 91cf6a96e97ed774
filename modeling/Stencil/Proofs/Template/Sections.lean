import Stencil.Proofs.Template.Discipline

/-!
# The body of a section, parsed on its own

With the delimiters in force behind its opening tag, the body of a section parses
to the children of the section. Only the spans differ: they are moved by what
stands in front of the body.
-/

set_option autoImplicit false

namespace Stencil

open OpenSection Text

namespace Node

mutual

def moved (k : Nat) : Node → Node
  | text s span => text s (span.moved k)
  | variableTag name escaped span => variableTag name escaped (span.moved k)
  | sectionTag name inverted span body cs =>
    sectionTag name inverted (span.moved k) (body.moved k) (movedAll k cs)
  | partialTag name span => partialTag name (span.moved k)
  | comment content span => comment content (span.moved k)

def movedAll (k : Nat) : List Node → List Node
  | [] => []
  | n :: ns => moved k n :: movedAll k ns

end

theorem movedAll_append (k : Nat) (ns ms : List Node) :
    movedAll k (ns ++ ms) = movedAll k ns ++ movedAll k ms := by
  induction ns with
  | nil => rfl
  | cons n ns ih => rw [List.cons_append, movedAll, ih]; rfl

end Node

theorem Token.leaves_moved (k : Nat) (t : Token) : (t.moved k).leaves = Node.movedAll k t.leaves := by
  obtain ⟨kind, value, span⟩ := t
  cases kind <;> rfl

namespace OpenSection

def moved (k : Nat) (o : OpenSection) : OpenSection :=
  ⟨o.name, o.inverted, o.span.moved k, Node.movedAll k o.children⟩

theorem grow_moved (k : Nat) (o : OpenSection) (ns : List Node) :
    (o.moved k).grow (Node.movedAll k ns) = (o.grow ns).moved k := by
  simp [grow, moved, Node.movedAll_append]

/-- Ends of sections are clamped, so it is enough that they clamp to the same offset. -/
theorem finish_moved {k stop stop' : Nat} (h : Span.clamp stop' = Span.clamp (stop + k))
    (o : OpenSection) : (o.moved k).finish stop' = (o.finish stop).moved k := by
  have hs : Span.ofBounds (o.span.moved k).stop.toNat stop' =
      (Span.ofBounds o.span.stop.toNat stop).moved k := by
    rw [Span.moved_ofBounds, Span.moved_stop]
    exact Span.ofBounds_congr (Span.clamp_clamp _) h
  simp only [finish, moved, Node.moved, hs]

theorem collapse_moved {k stop stop' : Nat} (h : Span.clamp stop' = Span.clamp (stop + k))
    (os : List OpenSection) (ns : List Node) :
    collapse stop' (Node.movedAll k ns) (os.map (moved k)) =
      Node.movedAll k (collapse stop ns os) := by
  induction os generalizing ns with
  | nil => rfl
  | cons o os ih =>
    have ho : [((o.grow ns).finish stop).moved k] = Node.movedAll k [(o.grow ns).finish stop] := rfl
    rw [List.map_cons, collapse, collapse, grow_moved, finish_moved h, ho, ih]

end OpenSection

namespace Nesting

def moved (k : Nat) (n : Nesting) : Nesting :=
  ⟨n.opened.map (OpenSection.moved k), Node.movedAll k n.root, n.problems.map (Problem.moved k)⟩

theorem insertAll_moved (k : Nat) (n : Nesting) (ns : List Node) :
    (n.moved k).insertAll (Node.movedAll k ns) = (n.insertAll ns).moved k := by
  obtain ⟨_ | ⟨o, os⟩, root, problems⟩ := n
  · simp [insertAll, moved, Node.movedAll_append]
  · simp [insertAll, moved, grow_moved]

theorem unclosed_moved (k : Nat) :
    OpenSection.unclosed ∘ OpenSection.moved k = Problem.moved k ∘ OpenSection.unclosed := rfl

theorem step_moved (k : Nat) (n : Nesting) (t : Token) :
    step (n.moved k) (t.moved k) = (step n t).moved k := by
  by_cases hk : t.kind.opensSection
  · rw [step_opens n hk, step_opens (n.moved k) (t := t.moved k) hk]
    rfl
  by_cases hc : t.kind = .close
  · rw [step_close n hc, step_close (n.moved k) (t := t.moved k) hc]
    rcases split_named OpenSection.name t.value n.opened with hn | ⟨inner, m, outer, hl, hi, hm⟩
    · have hn' : ∀ x ∈ (n.moved k).opened, x.name ≠ (t.moved k).value := by
        intro x hx
        obtain ⟨o, ho, rfl⟩ := List.mem_map.1 hx
        exact hn o ho
      rw [close_unmatched hn, close_unmatched hn']
      simp [record, moved, Problem.moved, Token.moved]
    · have hl' : (n.moved k).opened =
          inner.map (OpenSection.moved k) ++ m.moved k :: outer.map (OpenSection.moved k) := by
        simp [moved, hl]
      have hi' : ∀ x ∈ inner.map (OpenSection.moved k), x.name ≠ (t.moved k).value := by
        intro x hx
        obtain ⟨o, ho, rfl⟩ := List.mem_map.1 hx
        exact hi o ho
      have hstop : Span.clamp (t.moved k).span.start.toNat =
          Span.clamp (t.span.start.toNat + k) := Span.clamp_clamp _
      rw [close_matched hl hi hm, close_matched (t := t.moved k) hl' hi' hm, ← insertAll_moved]
      have hcol := collapse_moved hstop (inner ++ [m]) []
      rw [List.map_append] at hcol
      rw [← hcol]
      simp [moved, unclosed_moved, Node.movedAll]
  · rw [step_adds n hk hc, step_adds (n.moved k) (t := t.moved k) hk hc, Token.leaves_moved,
      insertAll_moved]

theorem run_moved (k : Nat) (ts : List Token) : run (ts.map (Token.moved k)) = (run ts).moved k := by
  induction ts using List.reverseRecOn with
  | nil => rfl
  | append_singleton ts t ih =>
    rw [List.map_append, List.map_cons, List.map_nil, run_snoc, run_snoc, ih, step_moved]

theorem finish_moved {k stop stop' : Nat} (h : Span.clamp stop' = Span.clamp (stop + k))
    (ts : List Token) :
    ((run (ts.map (Token.moved k))).finish stop').root =
      Node.movedAll k ((run ts).finish stop).root := by
  rw [run_moved, finish_eq, finish_eq, Node.movedAll_append, ← collapse_moved h]
  rfl

end Nesting

/-! ## Where the body of a section stands -/

namespace Lexeme

theorem tokens_split {ls : List Lexeme} {as bs : List Token} {t : Token}
    (h : tokens ls = as ++ t :: bs) :
    ∃ pre post, ls = pre ++ token t :: post ∧ tokens pre = as ∧ tokens post = bs := by
  obtain ⟨l₁, l₂, rfl, h₁, h₂⟩ := List.filterMap_eq_append_iff.1 h
  obtain ⟨l₃, l, l₄, rfl, hn, hl, rfl⟩ := List.filterMap_eq_cons_iff.1 h₂
  cases l with
  | problem p => cases hl
  | token u =>
    cases hl
    refine ⟨l₁ ++ l₃, l₄, by simp, ?_, rfl⟩
    have h₃ : tokens l₃ = [] := List.filterMap_eq_nil_iff.2 hn
    rw [tokens_append, h₃, List.append_nil]
    exact h₁

end Lexeme

namespace Cursor

open Lexeme

theorem read_split_tag {c : Cursor} {pre post : List Lexeme} {t : Token}
    (h : c.read = pre ++ .token t :: post) (ht : t.isText = false) :
    ∃ u c' v c'', Run c u pre c' ∧ Step c' v (.token t) c'' ∧ c''.read = post := by
  rcases read_split h with hs | ⟨u, ls, c', e, sp, hr, -, ⟨-, hl, -⟩ | ⟨x, -, hx⟩⟩
  · exact hs
  · cases hl
  · have hm : Lexeme.token t ∈ ofText c'.pos c'.rest := by rw [hx]; simp
    obtain ⟨a, x, b, -, hl⟩ := mem_ofText hm
    cases hl
    cases ht

end Cursor

namespace Template

def delimitersAt (d : Delimiters) (source : String) (span : Span) : Delimiters :=
  Token.inForce d ((tokens d source).takeWhile (·.span != span))

variable {d : Delimiters} {source : String}

theorem delimitersAt_eq (h : byteLength source.toList < 2 ^ 32) {as bs : List Token} {t : Token}
    (hs : tokens d source = as ++ t :: bs) : delimitersAt d source t.span = Token.inForce d as := by
  have hn := (tokens_spaced (d := d) h).nodup
  rw [hs] at hn
  have hb := (Token.span_ne hn).1
  rw [delimitersAt, hs, List.takeWhile_append_of_pos (by simpa using hb),
    List.takeWhile_cons_of_neg (by simp), List.append_nil]

theorem behind_tag (h : byteLength source.toList < 2 ^ 32) {before after : List Token} {t : Token}
    (ht : t.kind.opensSection)
    (hs : Token.squash (tokens d source) = before ++ t :: after) :
    ∃ a c, source.toList = a ++ Cursor.rest c ∧ c.pos = byteLength a ∧
      t.span.stop = Span.clamp (byteLength a) ∧ c.delimiters = delimitersAt d source t.span ∧
      Token.squash (Lexeme.tokens c.read) = after := by
  have htext : t.isText = false := by
    cases hk : t.kind <;> simp [hk, TokenKind.opensSection, Token.isText] at ht ⊢
  obtain ⟨as, bs, hts, -, hafter⟩ := Token.squash_split htext hs
  obtain ⟨pre, post, hls, hpre, hpost⟩ := Lexeme.tokens_split hts
  obtain ⟨u, c₁, v, c, hrun, hstep, hread⟩ :=
    Cursor.read_split_tag (c := ⟨d, 0, source.toList⟩) hls htext
  obtain ⟨h1, h2⟩ := hrun.start
  obtain ⟨h3, h4, -⟩ := hstep.rest
  have hpos : c.pos = byteLength (u ++ v) := by rw [h4, h2, byteLength_append]
  have hspan : t.span = .ofBounds c₁.pos c.pos := Option.some.inj hstep.tile
  have hkind : t.kind ≠ .setDelimiters := by
    intro hk
    rw [hk] at ht
    cases ht
  have hforce : c.delimiters = c₁.delimiters := by
    rw [hstep.inForce]
    simp [Lexeme.tokens, Lexeme.token?, Token.inForce, Token.putsInForce, hkind]
  refine ⟨u ++ v, c, ?_, hpos, ?_, ?_, ?_⟩
  · rw [List.append_assoc, ← h3]
    exact h1
  · rw [hspan, Span.ofBounds_stop (by omega), hpos]
  · rw [hforce, hrun.inForce, hpre, delimitersAt_eq h hts]
  · rw [hread, hpost, hafter]

/-- What some text reads and nests to at byte `k` is what it parses to, moved. -/
theorem nodes_alone {d' : Delimiters} {k stop : Nat} {b : List Char} (h : byteLength b < 2 ^ 32)
    (hstop : Span.clamp stop = Span.clamp (byteLength b + k)) :
    ((Nesting.run (Token.squash (Lexeme.tokens (Lexeme.read d' k b)))).finish stop).root =
      Node.movedAll k (parse d' (String.ofList b)).nodes := by
  have hb : byteLength (String.ofList b).toList < 2 ^ 32 := by simpa using h
  have hread : Lexeme.read d' k b = (lexemes d' (String.ofList b)).map (Lexeme.moved k) := by
    have := Cursor.read_moved k ⟨d', 0, b⟩
    simpa [Cursor.read, Cursor.moved, lexemes] using this
  have hnodes : (parse d' (String.ofList b)).nodes =
      ((Nesting.run (Token.squash (tokens d' (String.ofList b)))).finish (byteLength b)).root := by
    simp [parse, nest, Nesting.run, tokens]
  rw [hread, Lexeme.tokens_moved, hnodes]
  change ((Nesting.run (Token.squash ((tokens d' (String.ofList b)).map (Token.moved k)))).finish
    stop).root = _
  rw [Token.squash_moved (tokens_spaced hb), Nesting.finish_moved hstop]

/-- The children of a section are the tree that its body parses to, moved, whatever
ended the section. -/
theorem section_alone (h : byteLength source.toList < 2 ^ 32) {name : String} {inverted : Bool}
    {span body : Span} {cs : List Node}
    (hx : (Node.sectionTag name inverted span body cs).Inside (parse d source).nodes) :
    ∃ a b c, source.toList = a ++ (b ++ c) ∧
      body = .ofBounds (byteLength a) (byteLength a + byteLength b) ∧
      cs = Node.movedAll (byteLength a)
        (parse (delimitersAt d source span) (String.ofList b)).nodes := by
  have hcases := Nesting.finished_section (x := .sectionTag name inverted span body cs) trivial hx
  generalize hn : Node.sectionTag name inverted span body cs = x at hcases
  rcases hcases with hc | he
  · cases hc with
    | @mk before inside after inner t c hts ht hc _ _ _ =>
      obtain ⟨rfl, rfl, rfl⟩ := Nesting.sectionOf_eq ht hn.symm
      obtain ⟨a, p, hsrc, hpos, hstop, hforce, hrest⟩ := behind_tag h ht hts
      have hctext : c.isText = false := by simp [Token.isText, hc]
      obtain ⟨as, bs, hps, hin, -⟩ := Token.squash_split hctext hrest
      obtain ⟨pre, post, hls, hpre, -⟩ := Lexeme.tokens_split hps
      obtain ⟨b, q, v, q', hrun, hstep, -⟩ := Cursor.read_split_tag hls hctext
      obtain ⟨h1, h2⟩ := hrun.rest
      have hspan : c.span = .ofBounds q.pos q'.pos := Option.some.inj hstep.tile
      have hstart : Span.clamp c.span.start.toNat = Span.clamp (byteLength a + byteLength b) := by
        rw [hspan, ← hpos, ← h2]
        exact Span.clamp_clamp _
      have hb : byteLength b < 2 ^ 32 := by
        rw [hsrc, h1, byteLength_append, byteLength_append] at h
        omega
      refine ⟨a, b, q.rest, by rw [hsrc, h1], ?_, ?_⟩
      · exact Span.ofBounds_congr (by rw [hstop, Span.clamp_clamp]) hstart
      · rw [← nodes_alone hb (by rw [hstart, Nat.add_comm]), ← hin, ← hpre, ← hrun.read_alone, hpos,
          hforce]
        rfl
  · cases he with
    | @mk before inside inner t hts ht _ =>
      obtain ⟨rfl, rfl, rfl⟩ := Nesting.sectionOf_eq ht hn.symm
      obtain ⟨a, p, hsrc, hpos, hstop, hforce, hrest⟩ := behind_tag h ht hts
      have hlen : byteLength source.toList = byteLength a + byteLength p.rest := by
        rw [hsrc, byteLength_append]
      refine ⟨a, p.rest, [], by rw [hsrc, List.append_nil], ?_, ?_⟩
      · exact Span.ofBounds_congr (by rw [hstop, Span.clamp_clamp]) (by rw [hlen])
      · have hread : p.read = Lexeme.read (delimitersAt d source span) (byteLength a) p.rest := by
          rw [Cursor.read, hforce, hpos]
          rfl
        have hend : Span.clamp (byteLength source.toList) =
            Span.clamp (byteLength p.rest + byteLength a) := by rw [hlen, Nat.add_comm]
        rw [← hrest, hread]
        exact nodes_alone (by omega) hend

end Template

end Stencil
