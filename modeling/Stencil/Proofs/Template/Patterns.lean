import Stencil.Template.Pattern
import Mathlib.Data.List.Infix
import Mathlib.Data.List.TakeWhile

/-!
# What scans find

The leftmost match of a pattern is told by what stands before and behind it, and
a match that ends inside a text is found there whatever follows the text. Both
are stated for the patterns that tags are made of.
-/

set_option autoImplicit false

namespace Stencil

namespace Text

def Blank (s : List Char) : Prop := ∀ c ∈ s, isBlank c = true

def Solid (s : List Char) : Prop := ∀ c ∈ s, isBlank c = false

def Clear (w s t : List Char) : Prop := ∀ x y, s = x ++ y → y ≠ [] → ¬ w <+: y ++ t

instance (s : List Char) : Decidable (Blank s) := List.decidableBAll (isBlank · = true) s

instance (s : List Char) : Decidable (Solid s) := List.decidableBAll (isBlank · = false) s

theorem clear_iff_tails {w s t : List Char} :
    Clear w s t ↔ ∀ y ∈ s.tails, y ≠ [] → ¬ w <+: y ++ t := by
  constructor
  · intro h y hy
    obtain ⟨x, rfl⟩ := (List.mem_tails _ _).1 hy
    exact h x y rfl
  · rintro h x y rfl
    exact h y ((List.mem_tails _ _).2 ⟨x, rfl⟩)

instance (w s t : List Char) : Decidable (Clear w s t) := decidable_of_iff' _ clear_iff_tails

theorem after?_isSome {w s : List Char} : (after? w s).isSome ↔ w <+: s := by
  rw [Option.isSome_iff_exists]
  constructor
  · rintro ⟨r, hr⟩
    exact ⟨r, (after?_eq_some.1 hr).symm⟩
  · rintro ⟨r, rfl⟩
    exact ⟨r, after?_eq_some.2 rfl⟩

theorem after?_append (w r : List Char) : after? w (w ++ r) = some r := after?_eq_some.2 rfl

theorem Blank.append {a b : List Char} (ha : Blank a) (hb : Blank b) : Blank (a ++ b) := by
  intro c hc
  rcases List.mem_append.1 hc with h | h
  · exact ha c h
  · exact hb c h

theorem dropBlanks_append {b : List Char} (hb : Blank b) (s : List Char) :
    dropBlanks (b ++ s) = dropBlanks s := by
  rw [dropBlanks, List.dropWhile_append_of_pos hb, dropBlanks]

def Flush (s : List Char) : Prop := ∀ c r, s = c :: r → isBlank c = false

theorem Flush.append {s : List Char} (h : Flush s) (hs : s ≠ []) (t : List Char) :
    Flush (s ++ t) := by
  intro c r hcr
  cases s with
  | nil => exact absurd rfl hs
  | cons a s => exact h c s (by rw [(List.cons.inj hcr).1])

theorem dropBlanks_of_flush {s : List Char} (h : Flush s) : dropBlanks s = s := by
  cases s with
  | nil => rfl
  | cons c r => simp [dropBlanks, h c r rfl]

theorem dropBlanks_split (s : List Char) :
    ∃ b, Blank b ∧ s = b ++ dropBlanks s ∧ Flush (dropBlanks s) := by
  refine ⟨s.takeWhile isBlank, fun c hc => List.mem_takeWhile_imp hc,
    (List.takeWhile_append_dropWhile).symm, ?_⟩
  intro c r h
  have hd := List.head?_dropWhile_not isBlank s
  rw [← dropBlanks, h] at hd
  exact hd

theorem trim_of_flush {s : List Char} (h : Flush s) (hr : Flush s.reverse) : trim s = s := by
  rw [trim, dropBlanks_of_flush h, dropBlanks_of_flush hr, List.reverse_reverse]

theorem flush_of_trim {s : List Char} (h : trim s = s) : Flush s ∧ Flush s.reverse := by
  have hl := congrArg List.length h
  have h1 := dropBlanks_length_le s
  have h2 := dropBlanks_length_le (dropBlanks s).reverse
  simp only [trim, List.length_reverse] at hl h2
  have hflush : ∀ t : List Char, (dropBlanks t).length = t.length → Flush t := by
    intro t ht
    obtain ⟨b, -, hb, hf⟩ := dropBlanks_split t
    have := congrArg List.length hb
    rw [List.length_append, ht] at this
    obtain rfl : b = [] := List.length_eq_zero_iff.1 (by omega)
    rwa [hb]
  have hs : dropBlanks s = s := dropBlanks_of_flush (hflush s (by omega))
  rw [hs] at hl
  exact ⟨hflush s (by rw [hs]), hflush s.reverse (by rw [hl, List.length_reverse])⟩

theorem Solid.flush {s : List Char} (h : Solid s) (t : List Char) (hs : s ≠ []) :
    Flush (s ++ t) := by
  intro c r hc
  cases s with
  | nil => exact absurd rfl hs
  | cons d s =>
    cases hc
    exact h c (by simp)

/-- No word starts inside a text either when blanks stand between the text and the word. -/
theorem Clear.blanks {w s : List Char} (h : Clear w s w) (hw : Solid w) {e : List Char}
    (he : Blank e) (r : List Char) : Clear w s (e ++ (w ++ r)) := by
  intro x y hs hy hp
  refine h x y hs hy ?_
  by_cases hl : w.length ≤ y.length
  · exact (List.prefix_of_prefix_length_le hp (List.prefix_append _ _) hl).trans
      (List.prefix_append _ _)
  · cases e with
    | nil =>
      rw [List.nil_append, ← List.append_assoc] at hp
      exact List.prefix_of_prefix_length_le hp (List.prefix_append _ _) (by simp)
    | cons c e =>
      exfalso
      have hc : y ++ [c] <+: w := by
        refine List.prefix_of_prefix_length_le ⟨e ++ (w ++ r), by simp⟩ hp ?_
        rw [List.length_append, List.length_singleton]
        omega
      have h1 := hw c (hc.subset (by simp))
      rw [he c (by simp)] at h1
      cases h1

end Text

open Text

namespace Pattern

def Misses (p : Pattern) (b r : List Char) : Prop :=
  ∀ x y, b = x ++ y → y ≠ [] → p.here (y ++ r) = none

theorem misses_nil (p : Pattern) (r : List Char) : p.Misses [] r := by
  intro x y h hy
  exact absurd (List.append_eq_nil_iff.1 h.symm).2 hy

theorem misses_cons {p : Pattern} {c : Char} {b r : List Char} :
    p.Misses (c :: b) r ↔ p.here (c :: b ++ r) = none ∧ p.Misses b r := by
  constructor
  · intro h
    exact ⟨h [] (c :: b) rfl (by simp), fun x y hb hy => h (c :: x) y (by rw [hb]; rfl) hy⟩
  · rintro ⟨h0, h⟩ x y hb hy
    cases x with
    | nil => rw [← show c :: b = y from hb]; exact h0
    | cons d x =>
      cases hb
      exact h x y rfl hy

theorem before_eq {p : Pattern} {b r : List Char} (hb : p.Misses b r)
    (hr : r = [] ∨ (p.here r).isSome) : p.before (b ++ r) = (b, r) := by
  induction b with
  | nil =>
    cases r with
    | nil => rfl
    | cons c r => simp [before, hr.resolve_left (by simp)]
  | cons c b ih =>
    obtain ⟨h0, h⟩ := misses_cons.1 hb
    rw [List.cons_append] at h0
    rw [List.cons_append, before, h0, ih h]
    simp

theorem before_spec (p : Pattern) (s : List Char) :
    p.Misses (p.before s).1 (p.before s).2 ∧
      ((p.before s).2 = [] ∨ (p.here (p.before s).2).isSome) := by
  induction s with
  | nil => exact ⟨misses_nil p [], Or.inl rfl⟩
  | cons c s ih =>
    rw [before]
    split
    · next h => exact ⟨misses_nil p _, Or.inr h⟩
    · next h =>
      refine ⟨misses_cons.2 ⟨?_, ih.1⟩, ih.2⟩
      rw [List.cons_append, before_append]
      simpa using h

theorem upTo_eq {p : Pattern} (hp : p.anchored = false) {b r : List Char} (hb : p.Misses b r)
    (hr : r = [] ∨ (p.here r).isSome) : p.upTo (b ++ r) = (b, r) := by
  simp only [upTo, hp, Bool.false_eq_true, if_false]
  exact before_eq hb hr

theorem upTo_spec {p : Pattern} (hp : p.anchored = false) {s b r : List Char}
    (h : p.upTo s = (b, r)) : s = b ++ r ∧ p.Misses b r ∧ (r = [] ∨ (p.here r).isSome) := by
  have ha := upTo_append p s
  simp only [upTo, hp, Bool.false_eq_true, if_false] at h ha
  have hs := before_spec p s
  rw [h] at ha hs
  exact ⟨ha.symm, hs.1, hs.2⟩

theorem take_of_here {p : Pattern} {s m r : List Char} (h : p.here s = some (m, r)) :
    p.take s = (m, r) := by
  simp [take, h]

structure Local (p : Pattern) : Prop where
  exact : p.Exact
  free : p.anchored = false
  extend : ∀ {s : List Char} (z : List Char), (p.here s).isSome → (p.here (s ++ z)).isSome
  restrict : ∀ {m r z : List Char}, p.here (m ++ (r ++ z)) = some (m, r ++ z) →
    p.here (m ++ r) = some (m, r)

theorem Local.misses {p : Pattern} (hp : p.Local) {b r z : List Char} (h : p.Misses b (r ++ z)) :
    p.Misses b r := by
  intro x y hb hy
  have hn := h x y hb hy
  rw [← List.append_assoc] at hn
  by_contra hs
  have := hp.extend z (Option.isSome_iff_ne_none.2 hs)
  rw [hn] at this
  cases this

theorem Local.take {p : Pattern} (hp : p.Local) {m r z : List Char}
    (h : p.take (m ++ (r ++ z)) = (m, r ++ z)) : p.take (m ++ r) = (m, r) := by
  cases hs : p.here (m ++ (r ++ z)) with
  | some x =>
    obtain rfl : x = (m, r ++ z) := by rw [← h, take_of_here hs]
    exact take_of_here (hp.restrict hs)
  | none =>
    obtain rfl : m = [] := by simpa [Pattern.take, hs] using h
    cases hr : p.here r with
    | none => simp [Pattern.take, hr]
    | some x =>
      have := hp.extend z (s := r) (by simp [hr])
      rw [List.nil_append] at hs
      rw [hs] at this
      cases this

theorem Local.upTo {p : Pattern} (hp : p.Local) {b r z : List Char}
    (h : p.upTo (b ++ (r ++ z)) = (b, r ++ z)) (hr : (p.here r).isSome) :
    p.upTo (b ++ r) = (b, r) :=
  upTo_eq hp.free (hp.misses (upTo_spec hp.free h).2.1) (Or.inr hr)

/-! ## The patterns of tags -/

theorem blanksThen_some {w s m r : List Char} (h : blanksThen w s = some (m, r)) :
    s = m ++ r ∧ ∃ b, Blank b ∧ m = b ++ w := by
  refine ⟨blanksThen_eq h, ?_⟩
  induction s generalizing m with
  | nil =>
    obtain ⟨t, -, ht⟩ := Option.map_eq_some_iff.1 h
    cases ht
    exact ⟨[], by simp [Blank], rfl⟩
  | cons c s ih =>
    rw [blanksThen, Option.or_eq_some_iff] at h
    rcases h with h | ⟨-, h⟩
    · obtain ⟨⟨m', t⟩, hb, he⟩ := Option.map_eq_some_iff.1 h
      cases he
      split at hb
      · next hc =>
        obtain ⟨b, hbl, rfl⟩ := ih hb
        exact ⟨c :: b, by simpa [Blank, hc] using hbl, rfl⟩
      · simp at hb
    · obtain ⟨t, -, ht⟩ := Option.map_eq_some_iff.1 h
      cases ht
      exact ⟨[], by simp [Blank], rfl⟩

theorem blanksThen_isSome {w s : List Char} :
    (blanksThen w s).isSome ↔ ∃ b t, Blank b ∧ s = b ++ t ∧ w <+: t := by
  constructor
  · intro h
    obtain ⟨⟨m, r⟩, hm⟩ := Option.isSome_iff_exists.1 h
    obtain ⟨rfl, b, hb, rfl⟩ := blanksThen_some hm
    exact ⟨b, w ++ r, hb, by simp, by simp⟩
  · rintro ⟨b, t, hb, rfl, ht⟩
    induction b with
    | nil =>
      have ha := after?_isSome.2 ht
      cases t with
      | nil => simpa [blanksThen] using ha
      | cons c t => simp [blanksThen, ha]
    | cons c b ih =>
      have hc : isBlank c = true := hb c (by simp)
      have hi := ih fun d hd => hb d (by simp [hd])
      simp [blanksThen, hc, hi]

theorem blanksThen_solid {w e : List Char} (hw : Solid w) (hne : w ≠ []) (he : Blank e)
    (r : List Char) : blanksThen w (e ++ (w ++ r)) = some (e ++ w, r) := by
  induction e with
  | nil =>
    obtain ⟨c, v, rfl⟩ := List.exists_cons_of_ne_nil hne
    have hc : isBlank c = false := hw c (by simp)
    have ha : after? (c :: v) (c :: (v ++ r)) = some r := after?_append (c :: v) r
    simp [blanksThen, hc, ha]
  | cons c e ih =>
    have hc : isBlank c = true := he c (by simp)
    simp [blanksThen, hc, ih fun d hd => he d (by simp [hd])]

theorem closing_misses {w s e : List Char} (hw : Solid w) (h : Clear w s w) (hs : trim s = s)
    (he : Blank e) (r : List Char) : (closing w).Misses s (e ++ (w ++ r)) := by
  intro x y hxy hy
  by_contra hn
  obtain ⟨b, t, hb, hbt, ht⟩ := blanksThen_isSome.1 (Option.isSome_iff_ne_none.2 hn)
  rcases List.append_eq_append_iff.1 hbt with ⟨z, rfl, -⟩ | ⟨z, rfl, rfl⟩
  · -- the text would end in blanks
    obtain ⟨y', c, rfl⟩ := (List.eq_nil_or_concat y).resolve_left hy
    rw [List.concat_eq_append] at hb hxy
    have hf := (flush_of_trim hs).2 c (x ++ y').reverse (by rw [hxy]; simp)
    rw [hb c (by simp)] at hf
    cases hf
  · by_cases hz : z = []
    · subst hz
      obtain ⟨y', c, hy'⟩ := (List.eq_nil_or_concat b).resolve_left (by simpa using hy)
      rw [List.concat_eq_append] at hy'
      subst hy'
      have hf := (flush_of_trim hs).2 c (x ++ y').reverse (by rw [hxy]; simp)
      rw [hb c (by simp)] at hf
      cases hf
    · exact h.blanks hw he r (x ++ b) z (by rw [hxy, List.append_assoc]) hz ht

theorem blanksThen_restrict {w m r z : List Char}
    (h : blanksThen w (m ++ (r ++ z)) = some (m, r ++ z)) :
    blanksThen w (m ++ r) = some (m, r) := by
  induction m with
  | nil =>
    obtain ⟨b, -, hb⟩ := (blanksThen_some h).2
    obtain rfl : w = [] := (List.append_eq_nil_iff.1 hb.symm).2
    cases r with
    | nil => rfl
    | cons c r =>
      rw [List.nil_append, List.cons_append, blanksThen, Option.or_eq_some_iff] at h
      have hc : isBlank c = false := by
        rcases h with h | ⟨h, -⟩
        · obtain ⟨_, -, he⟩ := Option.map_eq_some_iff.1 h
          cases he
        · by_contra hc
          have hn : (blanksThen [] (r ++ z)).isSome :=
            blanksThen_isSome.2 ⟨[], r ++ z, by simp [Blank], rfl, by simp⟩
          rw [if_pos (by simpa using hc), Option.map_eq_none_iff] at h
          rw [h] at hn
          cases hn
      simp [blanksThen, hc, after?]
  | cons c m ih =>
    rw [List.cons_append, blanksThen, Option.or_eq_some_iff] at h
    rw [List.cons_append, blanksThen, Option.or_eq_some_iff]
    rcases h with h | ⟨h, ha⟩
    · obtain ⟨⟨m', t⟩, hb, he⟩ := Option.map_eq_some_iff.1 h
      cases he
      split at hb
      · next hc => exact Or.inl (by rw [if_pos hc, ih hb]; rfl)
      · simp at hb
    · obtain ⟨t, ht, he⟩ := Option.map_eq_some_iff.1 ha
      cases he
      have hw : after? (c :: m) (c :: (m ++ r)) = some r := after?_append (c :: m) r
      refine Or.inr ⟨?_, by rw [hw]; rfl⟩
      split
      · next hc =>
        rw [if_pos hc, Option.map_eq_none_iff] at h
        rw [Option.map_eq_none_iff]
        by_contra hs
        obtain ⟨b, u, hb, hu, hp⟩ := blanksThen_isSome.1 (Option.isSome_iff_ne_none.2 hs)
        have hl : (blanksThen (c :: m) (m ++ (r ++ z))).isSome :=
          blanksThen_isSome.2 ⟨b, u ++ z, hb, by rw [← List.append_assoc, hu, List.append_assoc],
            hp.trans (List.prefix_append u z)⟩
        rw [h] at hl
        cases hl
      · rfl

theorem closing_local (w : List Char) : (closing w).Local where
  exact := closing_exact w
  free := rfl
  extend := by
    intro s z h
    obtain ⟨b, t, hb, rfl, ht⟩ := blanksThen_isSome.1 h
    exact blanksThen_isSome.2 ⟨b, t ++ z, hb, by simp, ht.trans (List.prefix_append t z)⟩
  restrict := blanksThen_restrict

theorem oneOf_local (p : Char → Bool) : (oneOf p).Local where
  exact := oneOf_exact p
  free := rfl
  extend := by
    intro s z h
    cases s with
    | nil => cases h
    | cons c s => simpa [oneOf] using h
  restrict := by
    intro m r z h
    cases m with
    | nil =>
      have := congrArg (Option.map fun x => x.1.length) h
      cases hr : r ++ z with
      | nil => simp [oneOf, hr] at this
      | cons c s => by_cases hc : p c <;> simp [oneOf, hr, hc] at this
    | cons c m =>
      simp only [oneOf, List.cons_append] at h ⊢
      split at h
      · next hc =>
        cases h
        rw [if_pos hc]
        simp_all
      · cases h

theorem opening_here {w s m r : List Char} (h : (opening w).here s = some (m, r)) :
    s = m ++ r ∧ Flush r ∧ ∃ b, Blank b ∧ m = w ++ b := by
  simp only [opening, thenBlanks, Option.map_eq_some_iff, Prod.mk.injEq] at h
  obtain ⟨t, ht, rfl, rfl⟩ := h
  refine ⟨opening_exact w (by simp [opening, thenBlanks, ht]), ?_, _, ?_, rfl⟩
  · obtain ⟨-, -, -, hf⟩ := dropBlanks_split t
    exact hf
  · exact fun c hc => List.mem_takeWhile_imp hc

theorem opening_isSome {w s : List Char} : ((opening w).here s).isSome ↔ w <+: s := by
  rw [← after?_isSome]
  simp [opening, thenBlanks]

theorem opening_eq {w b r : List Char} (hb : Blank b) (hr : Flush r) :
    (opening w).here (w ++ (b ++ r)) = some (w ++ b, r) := by
  have ht : (b ++ r).takeWhile isBlank = b := by
    rw [List.takeWhile_append_of_pos hb]
    cases r with
    | nil => simp
    | cons c r => simp [hr c r rfl]
  simp [opening, thenBlanks, after?_append, ht, dropBlanks_append hb, dropBlanks_of_flush hr]

theorem opening_restrict {w m r z : List Char}
    (h : (opening w).here (m ++ (r ++ z)) = some (m, r ++ z)) :
    (opening w).here (m ++ r) = some (m, r) := by
  obtain ⟨-, hf, b, hb, rfl⟩ := opening_here h
  rw [List.append_assoc]
  apply opening_eq hb
  rintro c r' rfl
  exact hf c (r' ++ z) rfl

end Pattern

end Stencil
