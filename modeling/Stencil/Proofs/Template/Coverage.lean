import Stencil.Proofs.Template.Squash

/-!
# What joined text holds

A tag that yields no token leaves a hole in the text around it, and joining text
bridges the holes. So a text token holds the characters that its span covers but
for those of the dropped tags, and no dropped tag lies across an end of a token.
-/

set_option autoImplicit false

namespace Stencil

open Text

def Problem.dropped? : Problem → Option Span
  | emptyTag s | invalidDelimiters _ s => some s
  | unclosedTag .. | unclosedSection .. | unmatchedClose .. => none

def Problem.dropped (ps : List Problem) : List Span := ps.filterMap dropped?

theorem Problem.dropped?_span {p : Problem} {s : Span} (h : p.dropped? = some s) :
    p.span = s := by
  cases p <;> cases h <;> rfl

namespace Span

def Covers (s : Span) (p : Nat) : Prop := s.start.toNat ≤ p ∧ p < s.stop.toNat

instance (s : Span) (p : Nat) : Decidable (s.Covers p) := inferInstanceAs (Decidable (_ ∧ _))

def Within (s t : Span) : Prop := t.start ≤ s.start ∧ s.stop ≤ t.stop

instance (s t : Span) : Decidable (s.Within t) := inferInstanceAs (Decidable (_ ∧ _))

end Span

namespace Text

def without (cuts : List Span) : (pos : Nat) → List Char → List Char
  | _, [] => []
  | pos, c :: s =>
    if ∃ k ∈ cuts, k.Covers pos then without cuts (pos + c.utf8Size) s
    else c :: without cuts (pos + c.utf8Size) s

theorem without_append (cuts : List Span) (pos : Nat) (a b : List Char) :
    without cuts pos (a ++ b) = without cuts pos a ++ without cuts (pos + byteLength a) b := by
  induction a generalizing pos with
  | nil => rfl
  | cons c a ih =>
    rw [List.cons_append, without, without, ih, byteLength_cons, Nat.add_assoc]
    split <;> rfl

theorem without_congr {cuts cuts' : List Span} {pos : Nat} {s : List Char}
    (h : ∀ p, pos ≤ p → p < pos + byteLength s →
      ((∃ k ∈ cuts, k.Covers p) ↔ ∃ k ∈ cuts', k.Covers p)) :
    without cuts pos s = without cuts' pos s := by
  induction s generalizing pos with
  | nil => rfl
  | cons c s ih =>
    rw [byteLength_cons] at h
    have hc := c.utf8Size_pos
    have hs := @ih (pos + c.utf8Size) fun p h1 h2 => h p (by omega) (by omega)
    simp only [without, hs, h pos (Nat.le_refl _) (by omega)]

theorem without_none (pos : Nat) (s : List Char) : without [] pos s = s := by
  induction s generalizing pos with
  | nil => rfl
  | cons c s ih => simp [without, ih]

theorem without_covered {cuts : List Span} {k : Span} (hk : k ∈ cuts) {pos : Nat} {s : List Char}
    (h1 : k.start.toNat ≤ pos) (h2 : pos + byteLength s ≤ k.stop.toNat) :
    without cuts pos s = [] := by
  induction s generalizing pos with
  | nil => rfl
  | cons c s ih =>
    rw [byteLength_cons] at h2
    have hc := c.utf8Size_pos
    rw [without, if_pos ⟨k, hk, h1, by omega⟩]
    exact ih (by omega) (by omega)

/-- The text `u` at byte `pos` is `v` without the cuts, and each of the cuts lies in
it or apart from it. -/
structure Leaves (cuts : List Span) (pos : Nat) (u v : List Char) : Prop where
  kept : without cuts pos u = v
  whole : ∀ k ∈ cuts, k.stop.toNat ≤ pos ∨ pos + byteLength u ≤ k.start.toNat ∨
    pos ≤ k.start.toNat ∧ k.stop.toNat ≤ pos + byteLength u

namespace Leaves

variable {cuts : List Span} {pos : Nat} {u v : List Char}

theorem append {u' v' : List Char} (h : Leaves cuts pos u v)
    (k : Leaves cuts (pos + byteLength u) u' v') : Leaves cuts pos (u ++ u') (v ++ v') where
  kept := by rw [without_append, h.kept, k.kept]
  whole := by
    intro s hs
    have h1 := h.whole s hs
    have h2 := k.whole s hs
    rw [byteLength_append]
    omega

theorem apart (h : ∀ k ∈ cuts, k.stop.toNat ≤ pos ∨ pos + byteLength u ≤ k.start.toNat) :
    Leaves cuts pos u u where
  kept := by
    refine (without_congr fun p h1 h2 => ?_).trans (without_none pos u)
    constructor
    · rintro ⟨k, hk, h3, h4⟩
      have := h k hk
      omega
    · rintro ⟨k, hk, -⟩
      cases hk
  whole := by
    intro k hk
    have := h k hk
    omega

theorem cut {k : Span} (hk : k ∈ cuts) (h1 : k.start.toNat = pos)
    (h2 : k.stop.toNat = pos + byteLength u)
    (h : ∀ s ∈ cuts, s = k ∨ s.stop.toNat ≤ pos ∨ pos + byteLength u ≤ s.start.toNat) :
    Leaves cuts pos u [] where
  kept := without_covered hk (Nat.le_of_eq h1) (Nat.le_of_eq h2.symm)
  whole := by
    intro s hs
    rcases h s hs with rfl | h <;> omega

theorem within (h : Leaves cuts pos u v) {span : Span} (h1 : span.start.toNat = pos)
    (h2 : span.stop.toNat = pos + byteLength u) :
    without (cuts.filter fun k => k.Within span) pos u = v := by
  rw [← h.kept]
  refine without_congr fun p h3 h4 => ?_
  constructor
  · rintro ⟨k, hk, hp⟩
    exact ⟨k, (List.mem_filter.1 hk).1, hp⟩
  · rintro ⟨k, hk, hp⟩
    refine ⟨k, List.mem_filter.2 ⟨hk, decide_eq_true ?_⟩, hp⟩
    have hw := h.whole k hk
    rw [Span.Within, UInt32.le_iff_toNat_le, UInt32.le_iff_toNat_le]
    have h5 := hp.1
    have h6 := hp.2
    omega

end Leaves

end Text

namespace Token

/-- Tokens one behind the other in a text at byte `pos`, with nothing but cuts in
front of each of them. A text token holds what the cuts leave of its text. -/
inductive Cover (cuts : List Span) : (pos : Nat) → List Char → List Token → Prop
  | nil {pos : Nat} {s : List Char} : Cover cuts pos s []
  | cons {pos : Nat} {g u s : List Char} {t : Token} {ts : List Token} : Leaves cuts pos g [] →
      t.span = .ofBounds (pos + byteLength g) (pos + byteLength g + byteLength u) →
      (t.isText → Leaves cuts (pos + byteLength g) u t.value.toList) →
      Cover cuts (pos + byteLength g + byteLength u) s ts →
      Cover cuts pos (g ++ (u ++ s)) (t :: ts)

namespace Cover

variable {cuts : List Span} {pos : Nat} {s : List Char} {ts : List Token}

theorem front {u : List Char} {t : Token} (h : t.span = .ofBounds pos (pos + byteLength u))
    (ht : t.isText → t.value.toList = u)
    (hk : ∀ k ∈ cuts, k.stop.toNat ≤ pos ∨ pos + byteLength u ≤ k.start.toNat)
    (hs : Cover cuts (pos + byteLength u) s ts) : Cover cuts pos (u ++ s) (t :: ts) := by
  have hg : Leaves cuts pos [] [] := .apart fun k hc =>
    (hk k hc).imp id fun h => Nat.le_trans (Nat.le_add_right _ _) h
  refine .cons (g := []) hg h (fun htext => ?_) hs
  rw [ht htext]
  exact .apart hk

theorem behind {u : List Char} (h : Leaves cuts pos u [])
    (hs : Cover cuts (pos + byteLength u) s ts) : Cover cuts pos (u ++ s) ts := by
  cases hs with
  | nil => exact .nil
  | @cons _ g v s t ts hg ht hv hs =>
    have hp : pos + byteLength u + byteLength g = pos + byteLength (u ++ g) := by
      rw [byteLength_append, Nat.add_assoc]
    rw [hp] at ht hv hs
    rw [← List.append_assoc]
    exact .cons (h.append hg) ht hv hs

theorem join_span {a b c : Nat} {t u : Token} (hab : a ≤ b) (hbc : b ≤ c) {b' : Nat}
    (hb' : b' ≤ c) (ht : t.span = .ofBounds a b) (hu : u.span = .ofBounds b' c) :
    (t.join u).span = .ofBounds a c := by
  have hs : (Span.ofBounds a b).start = Span.clamp a := rfl
  rw [Span.ofBounds_of_le (Nat.le_trans hab hbc)]
  simp only [Token.join, ht, hu, Span.ofBounds_stop hb', hs]

/-- Joined text holds what the cuts leave of the text of both tokens and of what is
between them. -/
theorem join {t u : Token} (ht : t.isText) (hu : u.isText) (h : Cover cuts pos s (t :: u :: ts)) :
    Cover cuts pos s (t.join u :: ts) := by
  cases h with
  | @cons _ g v s _ _ hg hspan hv hs =>
    cases hs with
    | @cons _ g' v' s _ _ hg' hspan' hv' hs =>
      have hp : pos + byteLength g + byteLength v + byteLength g' + byteLength v' =
          pos + byteLength g + byteLength (v ++ (g' ++ v')) := by
        simp only [byteLength_append]
        omega
      have hjoin : (t.join u).span = .ofBounds (pos + byteLength g)
          (pos + byteLength g + byteLength (v ++ (g' ++ v'))) := by
        rw [← hp]
        exact join_span (by omega) (by omega) (by omega) hspan hspan'
      have hvalue : (t.join u).value.toList = t.value.toList ++ ([] ++ u.value.toList) := by
        simp [Token.join]
      have hsrc : v ++ (g' ++ (v' ++ s)) = (v ++ (g' ++ v')) ++ s := by simp
      rw [hsrc]
      refine .cons hg hjoin (fun _ => ?_) (by rw [← hp]; exact hs)
      rw [hvalue]
      exact (hv ht).append (hg'.append (hv' hu))

theorem squash {ts : List Token} {pos : Nat} {s : List Char} (h : Cover cuts pos s ts) :
    Cover cuts pos s (squash ts) := by
  match ts, h with
  | [], h => exact h
  | [t], h => exact h
  | t :: u :: us, h =>
    rw [squash_cons]
    split
    · next htu =>
      obtain ⟨ht, hu⟩ := Bool.and_eq_true_iff.1 htu
      exact (h.join ht hu).squash
    · cases h with
      | cons hg hspan hv hs => exact .cons hg hspan hv hs.squash
termination_by ts.length

theorem mem {t : Token} (h : Cover cuts pos s ts) (ht : t ∈ ts) :
    ∃ a m z, s = a ++ (m ++ z) ∧
      t.span = .ofBounds (pos + byteLength a) (pos + byteLength a + byteLength m) ∧
      (t.isText → Leaves cuts (pos + byteLength a) m t.value.toList) := by
  induction h with
  | nil => cases ht
  | @cons pos g u s v ts hg hspan hv _ ih =>
    rcases List.mem_cons.1 ht with rfl | ht
    · exact ⟨g, u, s, rfl, hspan, hv⟩
    · obtain ⟨a, m, z, rfl, ha, hm⟩ := ih ht
      have hp : pos + byteLength g + byteLength u + byteLength a =
          pos + byteLength (g ++ (u ++ a)) := by
        simp only [byteLength_append]
        omega
      rw [hp] at ha hm
      exact ⟨g ++ (u ++ a), m, z, by simp, ha, hm⟩

end Cover

end Token

namespace Lexeme

def dropped (ls : List Lexeme) : List Span := Problem.dropped (problems ls)

theorem dropped_append (ls ms : List Lexeme) : dropped (ls ++ ms) = dropped ls ++ dropped ms := by
  simp [dropped, problems, Problem.dropped]

theorem dropped_problem (p : Problem) : dropped [problem p] = p.dropped?.toList := by
  cases p <;> rfl

theorem tile_problem (p : Problem) : (problem p).tile? = p.dropped? := by cases p <;> rfl

theorem mem_dropped {ls : List Lexeme} {k : Span} (h : k ∈ dropped ls) :
    ∃ p, problem p ∈ ls ∧ p.dropped? = some k := by
  obtain ⟨p, hp, hk⟩ := List.mem_filterMap.1 h
  exact ⟨p, mem_problems hp, hk⟩

end Lexeme

namespace Cursor

open Lexeme

theorem Step.stop_eq {c c' : Cursor} {u : List Char} {l : Lexeme} (h : Step c u l c') :
    c'.pos + byteLength c'.rest = c.pos + byteLength c.rest := by
  obtain ⟨h1, h2, -⟩ := h.rest
  rw [h1, h2, byteLength_append, Nat.add_assoc]

/-- The tags that are dropped stand behind where the reading is. -/
theorem dropped_bounds {c : Cursor} (hc : c.pos + byteLength c.rest < 2 ^ 32) {k : Span}
    (hk : k ∈ dropped c.read) : c.pos ≤ k.start.toNat := by
  obtain ⟨p, hp, hk⟩ := mem_dropped hk
  exact ((read_spaced hc).bounds (List.mem_filterMap.2 ⟨_, hp, (tile_problem p).trans hk⟩)).1

theorem Step.covers {c c' : Cursor} {u : List Char} {l : Lexeme} (h : Step c u l c')
    (hc : c.pos + byteLength c.rest < 2 ^ 32) {cuts : List Span} {ts : List Token}
    (hcuts : ∀ k ∈ cuts, k.stop.toNat ≤ c.pos ∨ k ∈ dropped [l] ∨ k ∈ dropped c'.read)
    (hl : ∀ k ∈ dropped [l], k ∈ cuts) (hs : Token.Cover cuts c'.pos c'.rest ts) :
    Token.Cover cuts c.pos c.rest (tokens [l] ++ ts) := by
  obtain ⟨h1, h2, -⟩ := h.rest
  have htile := h.tile
  have hc' : c'.pos + byteLength c'.rest < 2 ^ 32 := by rwa [h.stop_eq]
  have hbehind : ∀ k ∈ dropped c'.read, c.pos + byteLength u ≤ k.start.toNat := by
    intro k hk
    rw [← h2]
    exact dropped_bounds hc' hk
  rw [h2] at htile hs
  rw [h1]
  cases l with
  | token t =>
    refine Token.Cover.front (Option.some.inj htile) (fun ht => ?_) (fun k hk => ?_) hs
    · obtain ⟨a, rfl, hv, -⟩ := h.literal (by simpa [Token.isText] using ht)
      rw [hv, String.toList_singleton]
    · rcases hcuts k hk with hk | hk | hk
      · exact .inl hk
      · cases hk
      · exact .inr (hbehind k hk)
  | problem p =>
    have hmem : dropped [.problem p] = [.ofBounds c.pos (c.pos + byteLength u)] := by
      rw [dropped_problem, ← tile_problem, htile]
      rfl
    simp only [hmem, List.mem_singleton] at hl hcuts
    refine Token.Cover.behind ?_ hs
    refine .cut (hl _ rfl) (Span.start_toNat (by omega) (by omega))
      (Span.stop_toNat (by omega) (by omega)) fun k hk => ?_
    rcases hcuts k hk with hk | hk | hk
    · exact .inr (.inl hk)
    · exact .inl hk
    · exact .inr (.inr (hbehind k hk))

theorem ofText_covers {cuts : List Span} {pos : Nat} (h : ∀ k ∈ cuts, k.stop.toNat ≤ pos)
    (s : List Char) : Token.Cover cuts pos s (tokens (ofText pos s)) := by
  induction s generalizing pos with
  | nil => exact .nil
  | cons c s ih =>
    have hc : byteLength [c] = c.utf8Size := by simp [byteLength]
    have hs := @ih (pos + c.utf8Size) fun k hk => Nat.le_trans (h k hk) (Nat.le_add_right _ _)
    have hone : (Token.mk .text (String.singleton c) (.ofBounds pos (pos + c.utf8Size))).span =
        .ofBounds pos (pos + byteLength [c]) := by rw [hc]
    rw [← hc] at hs
    exact Token.Cover.front (u := [c]) hone (fun _ => String.toList_singleton c)
      (fun k hk => .inl (h k hk)) hs

theorem Stop.covers {c : Cursor} {ls : List Lexeme} (h : Stop c ls) {cuts : List Span}
    (hcuts : ∀ k ∈ cuts, k.stop.toNat ≤ c.pos) : Token.Cover cuts c.pos c.rest (tokens ls) := by
  rcases h.cases with rfl | ⟨e, sp, rfl⟩
  · exact .nil
  · exact ofText_covers hcuts c.rest

theorem Stop.dropped {c : Cursor} {ls : List Lexeme} (h : Stop c ls) : dropped ls = [] := by
  rcases h.cases with rfl | ⟨e, sp, rfl⟩
  · rfl
  · rw [← List.singleton_append, dropped_append, dropped_problem, Lexeme.dropped, Lexeme.ofText,
      problems_map]
    rfl

/-- The tokens of a reading and the cuts `before` it, those of the tags it drops and
no others. -/
theorem Run.covers {c c' : Cursor} {u : List Char} {ls : List Lexeme} (h : Run c u ls c')
    {tail : List Lexeme} (hstop : Stop c' tail) (hc : c.pos + byteLength c.rest < 2 ^ 32)
    (before : List Span) (hb : ∀ k ∈ before, k.stop.toNat ≤ c.pos) :
    Token.Cover (before ++ Lexeme.dropped c.read) c.pos c.rest (tokens c.read) := by
  induction h generalizing before with
  | nil c =>
    rw [hstop.read, hstop.dropped, List.append_nil]
    exact hstop.covers hb
  | @cons c c₁ c' u v l ls hs hr ih =>
    obtain ⟨h1, h2, -⟩ := hs.rest
    have hc₁ : c₁.pos + byteLength c₁.rest < 2 ^ 32 := by rwa [hs.stop_eq]
    have hdrop : Lexeme.dropped c.read = Lexeme.dropped [l] ++ Lexeme.dropped c₁.read := by
      rw [hs.read, ← List.singleton_append, dropped_append]
    have hstep : ∀ k ∈ before ++ Lexeme.dropped [l], k.stop.toNat ≤ c₁.pos := by
      intro k hk
      rcases List.mem_append.1 hk with hk | hk
      · exact Nat.le_trans (hb k hk) (by omega)
      · obtain ⟨p, hp, hpk⟩ := mem_dropped hk
        obtain rfl : l = .problem p := (List.mem_singleton.1 hp).symm
        obtain rfl : k = .ofBounds c.pos c₁.pos :=
          Option.some.inj (hpk.symm.trans ((tile_problem p).symm.trans hs.tile))
        exact Nat.le_of_eq (Span.stop_toNat (by omega) (by omega))
    have hi := ih hstop hc₁ _ hstep
    rw [List.append_assoc, ← hdrop] at hi
    have htok : tokens c.read = tokens [l] ++ tokens c₁.read := by
      rw [hs.read, ← List.singleton_append, tokens_append]
    rw [htok]
    refine hs.covers hc (fun k hk => ?_) (fun k hk => ?_) hi
    · rw [hdrop] at hk
      exact (List.mem_append.1 hk).imp (hb k) List.mem_append.1
    · rw [hdrop]
      exact List.mem_append_right _ (List.mem_append_left _ hk)

end Cursor

namespace Template

variable {d : Delimiters} {source : String}

/-- The joined tokens of a source cover it but for the tags that are dropped. -/
theorem squash_covers (h : byteLength source.toList < 2 ^ 32) :
    Token.Cover (Lexeme.dropped (lexemes d source)) 0 source.toList
      (Token.squash (tokens d source)) := by
  obtain ⟨u, ls, c', tail, hr, hs⟩ := Cursor.exists_run ⟨d, 0, source.toList⟩
  have hc := hr.covers hs (by simpa using h) [] (by simp)
  exact Token.Cover.squash hc

end Template

end Stencil
