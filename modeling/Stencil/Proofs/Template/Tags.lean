import Stencil.Proofs.Template.Patterns
import Stencil.Template.Lexeme

/-!
# How a tag ends

Three ways to find the end of a tag, told by the pieces of the source they pass
over. Reading a tag gives exactly these pieces, so a tag that ends inside a text
is read from it whatever follows the text.
-/

set_option autoImplicit false

namespace Stencil

open Text

namespace TagRead

/-- From the text behind the sigil and its blanks to the text `b` of the tag, the
closing delimiter with the blanks `m` before it, and what follows. -/
inductive Ends (w : List Char) : (sigil s b m rest : List Char) → Prop
  | plain {sigil b m rest : List Char} : sigil ≠ ['='] → sigil ≠ ['\x7b'] →
      (Pattern.closing w).Misses b (m ++ rest) →
      (Pattern.closing w).here (m ++ rest) = some (m, rest) →
      Ends w sigil (b ++ (m ++ rest)) b m rest
  | braced {b e m rest : List Char} : Blank e →
      (Pattern.closing ('\x7d' :: w)).Misses b (e ++ '\x7d' :: (m ++ rest)) →
      w <+: m ++ rest →
      (Pattern.closing w).here (m ++ rest) = some (m, rest) →
      Ends w ['\x7b'] (b ++ (e ++ '\x7d' :: (m ++ rest))) b m rest
  | delimiters {b e g m rest : List Char} :
      Pattern.equalSign.Misses b (e ++ (g ++ (m ++ rest))) →
      Pattern.equalSign.here (e ++ (g ++ (m ++ rest))) = some (e, g ++ (m ++ rest)) →
      (Pattern.closing w).Misses g (m ++ rest) →
      (Pattern.closing w).here (m ++ rest) = some (m, rest) →
      Ends w ['='] (b ++ (e ++ (g ++ (m ++ rest)))) b m rest

variable {w s sigil b m rest : List Char}

theorem closing_isSome (h : (Pattern.closing w).here (m ++ rest) = some (m, rest)) :
    ((Pattern.closing w).here (m ++ rest)).isSome := by rw [h]; rfl

theorem brace_here {e t : List Char} (he : Blank e) :
    Pattern.closingBrace.here (e ++ '\x7d' :: t) = some (e ++ ['\x7d'], t) :=
  Pattern.blanksThen_solid (w := ['\x7d']) (by simp [Solid]; decide) (by simp) he t

theorem Ends.reads_body (h : Ends w sigil s b m rest) : body w sigil s = (b, m ++ rest) := by
  cases h with
  | plain h1 h2 hb hm =>
    have hu := Pattern.upTo_eq (p := Pattern.closing w) rfl hb (Or.inr (closing_isSome hm))
    rw [TagRead.body.eq_3 _ _ _ h1 h2]
    exact hu
  | @braced _ e _ _ he hb hw hm =>
    have h0 : (Pattern.closing ('\x7d' :: w)).here (e ++ '\x7d' :: (m ++ rest)) ≠ none := by
      rw [← Option.isSome_iff_ne_none]
      exact Pattern.blanksThen_isSome.2 ⟨e, _, he, rfl, by simpa using hw⟩
    have h1 := Pattern.upTo_eq (p := Pattern.closing ('\x7d' :: w)) rfl hb
      (Or.inr (Option.isSome_iff_ne_none.2 h0))
    have h2 := Pattern.take_of_here (brace_here (t := m ++ rest) he)
    have h3 := Pattern.upTo_eq (p := Pattern.closing w) rfl
      (Pattern.misses_nil _ (m ++ rest)) (Or.inr (closing_isSome hm))
    rw [List.nil_append] at h3
    simp only [TagRead.body, h1, h2, h3]
  | delimiters hb he hg hm =>
    have h1 := Pattern.upTo_eq (p := Pattern.equalSign) rfl hb (Or.inr (by rw [he]; rfl))
    have h2 := Pattern.take_of_here he
    have h3 := Pattern.upTo_eq (p := Pattern.closing w) rfl hg (Or.inr (closing_isSome hm))
    simp only [TagRead.body, h1, h2, h3]

theorem Ends.here (h : Ends w sigil s b m rest) :
    (Pattern.closing w).here (m ++ rest) = some (m, rest) := by
  cases h <;> assumption

theorem Ends.of_body (h : body w sigil s = (b, m ++ rest))
    (hm : (Pattern.closing w).here (m ++ rest) = some (m, rest)) (hne : m ≠ []) :
    Ends w sigil s b m rest := by
  have hr : m ++ rest ≠ [] := by simp [hne]
  unfold TagRead.body at h
  split at h
  · rcases h1 : Pattern.equalSign.upTo s with ⟨b', r1⟩
    rcases h2 : Pattern.equalSign.take r1 with ⟨e, r2⟩
    rcases h3 : (Pattern.closing w).upTo r2 with ⟨g, r3⟩
    simp only [h1, h2, h3] at h
    cases h
    obtain ⟨rfl, hb, h1⟩ := Pattern.upTo_spec rfl h1
    obtain ⟨rfl, hg, -⟩ := Pattern.upTo_spec rfl h3
    have hap := Pattern.take_append Pattern.equalSign_exact r1
    rw [h2] at hap
    subst hap
    rcases h1 with h1 | h1
    · simp [hr] at h1
    · obtain ⟨⟨e', r'⟩, hx⟩ := Option.isSome_iff_exists.1 h1
      have := (Pattern.take_of_here hx).symm.trans h2
      cases this
      exact .delimiters hb hx hg hm
  · rcases h1 : (Pattern.closing ('\x7d' :: w)).upTo s with ⟨b', r1⟩
    rcases h2 : Pattern.closingBrace.take r1 with ⟨e, r2⟩
    rcases h3 : (Pattern.closing w).upTo r2 with ⟨g, r3⟩
    simp only [h1, h2, h3] at h
    cases h
    obtain ⟨rfl, hb, h1⟩ := Pattern.upTo_spec rfl h1
    obtain ⟨rfl, hg, -⟩ := Pattern.upTo_spec rfl h3
    rcases h1 with rfl | h1
    · have := congrArg (fun p => p.2.length) h2
      have hl := List.length_pos_iff.2 hne
      simp [Pattern.closingBrace, Pattern.take, Pattern.blanksThen, after?] at this
      omega
    · obtain ⟨e', t, he, rfl, ht⟩ := Pattern.blanksThen_isSome.1 h1
      obtain ⟨t', rfl⟩ := ht
      rw [List.cons_append, Pattern.take_of_here (brace_here he)] at h2
      obtain ⟨rfl, hq⟩ := Prod.mk.inj h2
      -- the closing delimiter stands right behind the brace, so nothing is skipped
      have hg0 : g = [] := by
        by_contra hg0
        have hs : ((Pattern.closing w).here (g ++ (m ++ rest))).isSome :=
          Pattern.blanksThen_isSome.2 ⟨[], _, by simp [Blank], rfl, ⟨t', hq⟩⟩
        rw [hg [] g rfl hg0] at hs
        cases hs
      subst hg0
      rw [List.nil_append] at hq
      rw [List.cons_append, hq] at hb ⊢
      exact .braced he hb ⟨t', hq⟩ hm
  · next h1 h2 =>
    obtain ⟨rfl, hb, -⟩ := Pattern.upTo_spec (p := Pattern.closing w) rfl h
    exact .plain (by simpa using h1) (by simpa using h2) hb hm

/-- A tag is closed where its end is found, behind its sigil and some blanks. -/
theorem read_closed_iff : read w s = closed sigil b rest ↔
    ∃ c t m, sigilHere.take s = (sigil, c ++ t) ∧ Blank c ∧ Flush t ∧ Ends w sigil t b m rest ∧
      m ≠ [] := by
  constructor
  · intro h
    rcases h1 : sigilHere.take s with ⟨sg, r⟩
    obtain ⟨c, hc, hr, hf⟩ := dropBlanks_split r
    rcases h2 : body w sg (dropBlanks r) with ⟨b', r'⟩
    rcases h3 : (Pattern.closing w).take r' with ⟨m, rest'⟩
    simp only [read, h1, h2, h3] at h
    cases m with
    | nil => cases h
    | cons a m =>
      cases h
      have hm : (Pattern.closing w).here r' = some (a :: m, rest) := by
        cases hh : (Pattern.closing w).here r' with
        | none => simp [Pattern.take, hh] at h3
        | some x => rw [← h3, Pattern.take_of_here hh]
      obtain rfl := Pattern.closing_exact w hm
      exact ⟨c, dropBlanks r, a :: m, by rw [← hr], hc, hf,
        Ends.of_body h2 hm (by simp), by simp⟩
  · rintro ⟨c, t, m, h1, hc, hf, he, hm⟩
    obtain ⟨a, m, rfl⟩ := List.exists_cons_of_ne_nil hm
    have h3 := Pattern.take_of_here he.here
    simp only [read, h1, dropBlanks_append hc, dropBlanks_of_flush hf, he.reads_body, h3]

theorem Ends.restrict {r z : List Char} (h : Ends w sigil s b m (r ++ z)) :
    ∃ u, s = u ++ (r ++ z) ∧ Ends w sigil (u ++ r) b m r := by
  have hl := Pattern.closing_local w
  cases h with
  | plain h1 h2 hb hm =>
    refine ⟨b ++ m, by simp, ?_⟩
    rw [← List.append_assoc] at hb
    simpa using Ends.plain h1 h2 (hl.misses hb) (hl.restrict hm)
  | @braced _ e _ _ he hb hw hm =>
    refine ⟨b ++ (e ++ '\x7d' :: m), by simp, ?_⟩
    obtain ⟨-, c, -, hmc⟩ := Pattern.blanksThen_some hm
    have hw' : w <+: m ++ r :=
      List.prefix_of_prefix_length_le hw (by simp [← List.append_assoc])
        (by rw [hmc]; simp only [List.length_append]; omega)
    have hb' := (Pattern.closing_local _).misses (z := z) (r := e ++ '\x7d' :: (m ++ r))
      (by simpa using hb)
    simpa using Ends.braced he hb' hw' (hl.restrict hm)
  | @delimiters _ e g _ _ hb he hg hm =>
    refine ⟨b ++ (e ++ (g ++ m)), by simp, ?_⟩
    have hq : Pattern.equalSign.Local := Pattern.closing_local ['=']
    have hb' := hq.misses (z := z) (r := e ++ (g ++ (m ++ r))) (by simpa using hb)
    have he' := hq.restrict (m := e) (z := z) (r := g ++ (m ++ r)) (by simpa using he)
    have hg' := hl.misses (z := z) (r := m ++ r) (by simpa using hg)
    simpa using Ends.delimiters hb' he' hg' (hl.restrict hm)

/-- A tag that ends inside a text is the same whatever follows the text. -/
theorem read_restrict {r z : List Char} (h : read w s = closed sigil b (r ++ z)) :
    ∃ u, s = u ++ (r ++ z) ∧ read w (u ++ r) = closed sigil b r := by
  obtain ⟨c, t, m, h1, hc, hf, he, hm⟩ := read_closed_iff.1 h
  obtain ⟨u, rfl, he'⟩ := he.restrict
  have hs := Pattern.take_append (Pattern.oneOf_exact TokenKind.isSigil) s
  rw [← sigilHere, h1] at hs
  subst hs
  refine ⟨sigil ++ (c ++ u), by simp, ?_⟩
  refine read_closed_iff.2 ⟨c, u ++ r, m, ?_, hc, ?_, he', hm⟩
  · have ht := (Pattern.oneOf_local TokenKind.isSigil).take (m := sigil) (r := c ++ (u ++ r))
      (z := z) (by simpa [sigilHere] using h1)
    simpa [sigilHere] using ht
  · rintro a q hq
    exact hf a (q ++ z) (by rw [← List.append_assoc, hq]; rfl)

end TagRead

end Stencil
