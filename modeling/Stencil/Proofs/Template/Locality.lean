import Stencil.Proofs.Template.InForce

/-!
# Readings of a part of a source

A run that ends inside a text is a run over that text alone, and a run from
another byte gives the same lexemes with their spans moved. So the part of a
source between two steps reads as it does on its own.
-/

set_option autoImplicit false

namespace Stencil

open Text

namespace Span

def moved (k : Nat) (s : Span) : Span := ofBounds (s.start.toNat + k) (s.stop.toNat + k)

theorem clamp_add (n k : Nat) : clamp ((clamp n).toNat + k) = clamp (n + k) := by
  apply UInt32.toNat_inj.1
  simp only [clamp_toNat]
  omega

theorem ofBounds_max (start stop : Nat) : ofBounds start stop = ofBounds start (max start stop) := by
  by_cases h : start ≤ stop
  · rw [Nat.max_eq_right h]
  · have hc := clamp_le_clamp (Nat.le_of_not_le h)
    have hm : max (clamp stop) (clamp start) = clamp start := by
      change (if clamp stop ≤ clamp start then clamp start else clamp stop) = clamp start
      rw [if_pos hc]
    rw [Nat.max_eq_left (Nat.le_of_not_le h), ofBounds_of_le (Nat.le_refl start)]
    simp only [ofBounds, hm]

theorem ofBounds_congr {a b c e : Nat} (h : clamp a = clamp c) (k : clamp b = clamp e) :
    ofBounds a b = ofBounds c e := by simp only [ofBounds, h, k]

theorem moved_ofBounds (k start stop : Nat) :
    (ofBounds start stop).moved k = ofBounds (start + k) (stop + k) := by
  have hs : (ofBounds start stop).stop = clamp (max start stop) := by
    rw [ofBounds_max, ofBounds_stop (Nat.le_max_left _ _)]
  have hm : max (start + k) (stop + k) = max start stop + k := by omega
  rw [moved, hs, ofBounds_max (start + k), hm]
  exact ofBounds_congr (clamp_add start k) (clamp_add _ k)

end Span

def Token.moved (k : Nat) (t : Token) : Token := { t with span := t.span.moved k }

def Problem.moved (k : Nat) : Problem → Problem
  | unclosedTag e s => unclosedTag e (s.moved k)
  | unclosedSection n s => unclosedSection n (s.moved k)
  | unmatchedClose n s => unmatchedClose n (s.moved k)
  | invalidDelimiters c s => invalidDelimiters c (s.moved k)
  | emptyTag s => emptyTag (s.moved k)

namespace Lexeme

def moved (k : Nat) : Lexeme → Lexeme
  | token t => token (t.moved k)
  | problem p => problem (p.moved k)

theorem tokens_moved (k : Nat) (ls : List Lexeme) :
    tokens (ls.map (moved k)) = (tokens ls).map (Token.moved k) := by
  induction ls with
  | nil => rfl
  | cons l ls ih =>
    rw [List.map_cons, tokens_cons, tokens_cons, ih, List.map_append]
    cases l <;> rfl

theorem problems_moved (k : Nat) (ls : List Lexeme) :
    problems (ls.map (moved k)) = (problems ls).map (Problem.moved k) := by
  rw [problems, problems, List.filterMap_map, List.map_filterMap]
  congr 1
  funext l
  cases l <;> rfl

theorem char_moved (k pos : Nat) (c : Char) :
    Cursor.char (pos + k) c = (Cursor.char pos c).moved k := by
  simp only [Cursor.char, moved, Token.moved, Span.moved_ofBounds]
  rw [Nat.add_right_comm]

theorem ofText_moved (k pos : Nat) (s : List Char) :
    ofText (pos + k) s = (ofText pos s).map (moved k) := by
  induction s generalizing pos with
  | nil => rfl
  | cons c s ih =>
    have hp : pos + k + c.utf8Size = pos + c.utf8Size + k := by omega
    change Cursor.char (pos + k) c :: ofText (pos + k + c.utf8Size) s = _
    rw [char_moved, hp, ih]
    rfl

theorem ofTag_moved {k : Nat} {d d' : Delimiters} {span : Span} {sigil body : List Char}
    {l : Lexeme} (h : ofTag d span sigil body = (l, d')) :
    ofTag d (span.moved k) sigil body = (l.moved k, d') := by
  have hs : ∀ s : Span, ofTag d (s.moved k) sigil body =
      ((ofTag d s sigil body).1.moved k, (ofTag d s sigil body).2) := by
    intro s
    simp only [ofTag]
    split
    · split <;> rfl
    · rfl
    · split <;> rfl
  rw [hs, h]

end Lexeme

namespace TagRead

theorem read_unclosed {w s sigil r : List Char} (h : read w s = unclosed sigil r) :
    ∃ x, s = x ++ r := by
  have h1 := Pattern.take_append (Pattern.oneOf_exact TokenKind.isSigil) s
  obtain ⟨c, -, h2, -⟩ := dropBlanks_split (sigilHere.take s).2
  have h3 : ∀ sg t, ∃ x, t = x ++ (body w sg t).2 := by
    intro sg t
    unfold body
    split
    · refine ⟨(Pattern.equalSign.upTo t).1 ++ ((Pattern.equalSign.take (Pattern.equalSign.upTo t).2).1 ++
        ((Pattern.closing w).upTo (Pattern.equalSign.take (Pattern.equalSign.upTo t).2).2).1), ?_⟩
      rw [List.append_assoc, List.append_assoc, Pattern.upTo_append,
        Pattern.take_append Pattern.equalSign_exact, Pattern.upTo_append]
    · refine ⟨((Pattern.closing ('\x7d' :: w)).upTo t).1 ++
        ((Pattern.closingBrace.take ((Pattern.closing ('\x7d' :: w)).upTo t).2).1 ++
          ((Pattern.closing w).upTo
            (Pattern.closingBrace.take ((Pattern.closing ('\x7d' :: w)).upTo t).2).2).1), ?_⟩
      rw [List.append_assoc, List.append_assoc, Pattern.upTo_append,
        Pattern.take_append Pattern.closingBrace_exact, Pattern.upTo_append]
    · exact ⟨_, (Pattern.upTo_append _ t).symm⟩
  obtain ⟨x, h3⟩ := h3 (sigilHere.take s).1 (dropBlanks (sigilHere.take s).2)
  simp only [read] at h
  split at h
  · cases h
    refine ⟨(sigilHere.take s).1 ++ (c ++ x), ?_⟩
    rw [List.append_assoc, List.append_assoc, ← h3, ← h2]
    exact h1.symm
  · cases h

end TagRead

namespace Cursor

def moved (k : Nat) (c : Cursor) : Cursor := { c with pos := c.pos + k }

theorem Step.moved {c c' : Cursor} {u : List Char} {l : Lexeme} (k : Nat) (h : Step c u l c') :
    Step (c.moved k) u (l.moved k) (c'.moved k) := by
  cases h with
  | @char d pos a r ha =>
    have hp : pos + a.utf8Size + k = pos + k + a.utf8Size := by omega
    simp only [Cursor.moved, hp]
    rw [← Lexeme.char_moved]
    exact Step.char ha
  | @tag d d' pos m u sigil body r l hm hne hr hl =>
    have ht := Lexeme.ofTag_moved (k := k) hl
    have hp : pos + byteLength (m ++ u) + k = pos + k + byteLength (m ++ u) := by omega
    rw [Span.moved_ofBounds, hp] at ht
    simp only [Cursor.moved, hp]
    exact Step.tag hm hne hr ht

theorem Stop.moved {c : Cursor} {ls : List Lexeme} (k : Nat) (h : Stop c ls) :
    Stop (c.moved k) (ls.map (Lexeme.moved k)) := by
  cases h with
  | done => exact Stop.done
  | @unclosed d pos m s sigil r hm hne hr =>
    obtain ⟨x, rfl⟩ := TagRead.read_unclosed hr
    have hp : pos + byteLength (m ++ (x ++ r)) - byteLength r + k =
        pos + k + byteLength (m ++ (x ++ r)) - byteLength r := by
      simp only [byteLength_append]; omega
    rw [List.map_cons, ← Lexeme.ofText_moved]
    simp only [Lexeme.moved, Problem.moved, Span.moved_ofBounds, hp]
    exact Stop.unclosed hm hne hr
  | blocked hd hs hf => exact Stop.blocked hd hs hf

theorem Run.moved {c c' : Cursor} {u : List Char} {ls : List Lexeme} (k : Nat)
    (h : Run c u ls c') : Run (c.moved k) u (ls.map (Lexeme.moved k)) (c'.moved k) := by
  induction h with
  | nil c => exact Run.nil _
  | cons hs _ ih => exact Run.cons (hs.moved k) ih

theorem read_moved (k : Nat) (c : Cursor) : (c.moved k).read = c.read.map (Lexeme.moved k) := by
  obtain ⟨u, ls, c', tail, hr, hs⟩ := exists_run c
  rw [hr.read, hs.read, (hr.moved k).read, (hs.moved k).read, List.map_append]

theorem Step.restrict {d d' : Delimiters} {pos pos' : Nat} {s u r z : List Char} {l : Lexeme}
    (h : Step ⟨d, pos, s⟩ u l ⟨d', pos', r ++ z⟩) : Step ⟨d, pos, u ++ r⟩ u l ⟨d', pos', r⟩ := by
  generalize hq : r ++ z = q at h
  cases h with
  | char ha =>
    refine Step.char fun hp => ha ?_
    rw [← hq]
    exact hp.trans ⟨z, by simp⟩
  | @tag _ _ _ m u sigil body _ _ hm hne hr hl =>
    subst hq
    obtain ⟨v, hv, hr'⟩ := TagRead.read_restrict hr
    obtain rfl : u = v := List.append_cancel_right hv
    have hm' := Pattern.opening_restrict (r := u ++ r) (z := z) (by simpa using hm)
    rw [List.append_assoc]
    exact Step.tag hm' hne hr' hl

theorem Run.restrict {c c' : Cursor} {u r z : List Char} {ls : List Lexeme}
    (h : Run c u ls c') (hz : c'.rest = r ++ z) :
    Run ⟨c.delimiters, c.pos, u ++ r⟩ u ls ⟨c'.delimiters, c'.pos, r⟩ := by
  induction h with
  | nil c => exact Run.nil _
  | @cons c c' c'' u v l ls hs hr ih =>
    have hc : c'.rest = (v ++ r) ++ z := by rw [hr.rest.1, hz, List.append_assoc]
    rw [List.append_assoc]
    refine Run.cons ?_ (ih hz)
    obtain ⟨d, pos, s⟩ := c
    obtain ⟨d', pos', s'⟩ := c'
    obtain rfl : s' = (v ++ r) ++ z := hc
    exact hs.restrict

/-- The text of a run reads on its own as it does in front of what follows it. -/
theorem Run.read_alone {c c' : Cursor} {u : List Char} {ls : List Lexeme} (h : Run c u ls c') :
    Lexeme.read c.delimiters c.pos u = ls := by
  have hr := h.restrict (r := []) (z := c'.rest) rfl
  rw [List.append_nil] at hr
  have := hr.read
  rwa [Stop.done.read, List.append_nil] at this

/-! ## Where a lexeme comes from -/

theorem Stop.cases {c : Cursor} {ls : List Lexeme} (h : Stop c ls) :
    ls = [] ∨ ∃ e sp, ls = .problem (.unclosedTag e sp) :: Lexeme.ofText c.pos c.rest := by
  cases h with
  | done => exact Or.inl rfl
  | unclosed _ _ _ => exact Or.inr ⟨_, _, rfl⟩
  | blocked _ _ _ => exact Or.inl rfl

/-- A lexeme of a reading is that of a step, or it belongs to a tag that is not closed. -/
theorem read_split {c : Cursor} {pre post : List Lexeme} {l : Lexeme}
    (h : c.read = pre ++ l :: post) :
    (∃ u c' v c'', Run c u pre c' ∧ Step c' v l c'' ∧ c''.read = post) ∨
    ∃ u ls c' e sp, Run c u ls c' ∧
      Stop c' (.problem (.unclosedTag e sp) :: Lexeme.ofText c'.pos c'.rest) ∧
      ((pre = ls ∧ l = .problem (.unclosedTag e sp) ∧ post = Lexeme.ofText c'.pos c'.rest) ∨
        ∃ x, pre = ls ++ .problem (.unclosedTag e sp) :: x ∧
          Lexeme.ofText c'.pos c'.rest = x ++ l :: post) := by
  induction pre generalizing c with
  | nil =>
    rcases step_or_stop c with ⟨u, k, c', hs⟩ | ⟨ls, hs⟩
    · rw [hs.read] at h
      cases h
      exact Or.inl ⟨[], c, u, c', Run.nil c, hs, rfl⟩
    · rcases hs.cases with rfl | ⟨e, sp, rfl⟩
      · rw [hs.read] at h
        cases h
      · have hr := hs.read.symm.trans h
        cases hr
        exact Or.inr ⟨[], [], c, e, sp, Run.nil c, hs, Or.inl ⟨rfl, rfl, rfl⟩⟩
  | cons k pre ih =>
    rcases step_or_stop c with ⟨u, k', c', hs⟩ | ⟨ls, hs⟩
    · obtain ⟨rfl, hc⟩ := List.cons.inj (hs.read.symm.trans h)
      rcases ih hc with ⟨v, c₁, w, c₂, hrun, hstep, hpost⟩ |
        ⟨v, ls, c₁, e, sp, hrun, hstop, hcase⟩
      · exact Or.inl ⟨u ++ v, c₁, w, c₂, Run.cons hs hrun, hstep, hpost⟩
      · refine Or.inr ⟨u ++ v, k' :: ls, c₁, e, sp, Run.cons hs hrun, hstop, ?_⟩
        rcases hcase with ⟨rfl, hl, hp⟩ | ⟨x, rfl, hx⟩
        · exact Or.inl ⟨rfl, hl, hp⟩
        · exact Or.inr ⟨x, rfl, hx⟩
    · rcases hs.cases with rfl | ⟨e, sp, rfl⟩
      · rw [hs.read] at h
        cases h
      · have hr := hs.read.symm.trans h
        obtain ⟨rfl, hx⟩ := List.cons.inj hr
        exact Or.inr ⟨[], [], c, e, sp, Run.nil c, hs, Or.inr ⟨pre, rfl, hx⟩⟩

end Cursor

end Stencil
