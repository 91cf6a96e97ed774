import Stencil.Proofs.Template.Offsets
import Stencil.Proofs.Template.Tags

/-!
# Readings, step by step

A reading takes one character of literal text or one closed tag at a time. It
stops at the end of the source, at a tag that is not closed, or, with an empty
opening delimiter, at the first character that is no blank. What is read from a
place is the lexemes of the steps and what stands at the stop.
-/

set_option autoImplicit false

namespace Stencil

open Text

/-- Where a reading stands: the delimiters in force, the byte it has come to, and
the text that is left. -/
structure Cursor where
  delimiters : Delimiters
  pos : Nat
  rest : List Char

namespace Cursor

def read (c : Cursor) : List Lexeme := Lexeme.read c.delimiters c.pos c.rest

def char (pos : Nat) (a : Char) : Lexeme :=
  .token ⟨.text, String.singleton a, .ofBounds pos (pos + a.utf8Size)⟩

inductive Step : Cursor → (used : List Char) → Lexeme → Cursor → Prop
  | char {d : Delimiters} {pos : Nat} {a : Char} {r : List Char} :
      ¬ d.opening.toList <+: a :: r →
      Step ⟨d, pos, a :: r⟩ [a] (char pos a) ⟨d, pos + a.utf8Size, r⟩
  | tag {d d' : Delimiters} {pos : Nat} {m u sigil body r : List Char} {l : Lexeme} :
      (Pattern.opening d.opening.toList).here (m ++ (u ++ r)) = some (m, u ++ r) → m ≠ [] →
      TagRead.read d.closing.toList (u ++ r) = .closed sigil body r →
      Lexeme.ofTag d (.ofBounds pos (pos + byteLength (m ++ u))) sigil body = (l, d') →
      Step ⟨d, pos, m ++ (u ++ r)⟩ (m ++ u) l ⟨d', pos + byteLength (m ++ u), r⟩

inductive Stop : Cursor → List Lexeme → Prop
  | done {d : Delimiters} {pos : Nat} : Stop ⟨d, pos, []⟩ []
  | unclosed {d : Delimiters} {pos : Nat} {m s sigil r : List Char} :
      (Pattern.opening d.opening.toList).here (m ++ s) = some (m, s) → m ≠ [] →
      TagRead.read d.closing.toList s = .unclosed sigil r →
      Stop ⟨d, pos, m ++ s⟩
        (.problem (.unclosedTag (TagRead.expected d.closing sigil)
          (.ofBounds pos (pos + byteLength (m ++ s) - byteLength r))) :: Lexeme.ofText pos (m ++ s))
  | blocked {d : Delimiters} {pos : Nat} {s : List Char} :
      d.opening = "" → s ≠ [] → Flush s → Stop ⟨d, pos, s⟩ []

inductive Run : Cursor → (used : List Char) → List Lexeme → Cursor → Prop
  | nil (c : Cursor) : Run c [] [] c
  | cons {c c' c'' : Cursor} {u v : List Char} {l : Lexeme} {ls : List Lexeme} :
      Step c u l c' → Run c' v ls c'' → Run c (u ++ v) (l :: ls) c''

def fromTag (d : Delimiters) (pos : Nat) (s : List Char) : List Lexeme :=
  match (Pattern.opening d.opening.toList).take s with
  | ([], _) => []
  | (_ :: _, t) =>
    match TagRead.read d.closing.toList t with
    | .unclosed sigil r =>
      .problem (.unclosedTag (TagRead.expected d.closing sigil)
        (.ofBounds pos (pos + byteLength s - byteLength r))) :: Lexeme.ofText pos s
    | .closed sigil body r =>
      let stop := pos + byteLength s - byteLength r
      let (l, d') := Lexeme.ofTag d (.ofBounds pos stop) sigil body
      l :: Lexeme.read d' stop r

section Literal

variable {d : Delimiters} {a b : List Char}
  (ha : (Pattern.opening d.opening.toList).Misses a b)
  (hb : b = [] ∨ ((Pattern.opening d.opening.toList).here b).isSome)
include ha hb

theorem read_fromTag (pos : Nat) :
    Lexeme.read d pos (a ++ b) = Lexeme.ofText pos a ++ fromTag d (pos + byteLength a) b := by
  have hu := Pattern.upTo_eq (p := Pattern.opening d.opening.toList) rfl ha hb
  by_cases hab : a ++ b = []
  · obtain ⟨rfl, rfl⟩ := List.append_eq_nil_iff.1 hab
    cases h : d.opening.toList <;>
      simp [Lexeme.read, Lexeme.ofText, Token.ofText, fromTag, Pattern.take, Pattern.opening,
        Pattern.thenBlanks, after?, h, dropBlanks]
  rw [Lexeme.read, if_neg (by simpa using hab)]
  have hl : pos + byteLength (a ++ b) = pos + byteLength a + byteLength b := by
    rw [byteLength_append]; omega
  simp only [hu, hl, fromTag]
  rcases ht : (Pattern.opening d.opening.toList).take b with ⟨m, s⟩
  cases m with
  | nil => simp
  | cons c m =>
    rw [if_neg (by simp)]
    split
    · next h =>
      simp only [hu, ht] at h
      simp only [h]
    · next h =>
      simp only [hu, ht] at h
      simp only [h]

theorem read_text (pos : Nat) :
    Lexeme.read d pos (a ++ b) =
      Lexeme.ofText pos a ++ Lexeme.read d (pos + byteLength a) b := by
  rw [read_fromTag ha hb, ← List.nil_append b, read_fromTag (Pattern.misses_nil _ b) hb]
  rfl

end Literal

theorem read_here {d : Delimiters} {pos : Nat} {s : List Char}
    (h : ((Pattern.opening d.opening.toList).here s).isSome) :
    Lexeme.read d pos s = fromTag d pos s := by
  have := read_fromTag (Pattern.misses_nil _ s) (Or.inr h) pos
  simpa [Lexeme.ofText, Token.ofText, byteLength_nil] using this

theorem Step.read {c c' : Cursor} {u : List Char} {l : Lexeme} (h : Step c u l c') :
    c.read = l :: c'.read := by
  cases h with
  | @char d pos a r ha =>
    rcases hu : (Pattern.opening d.opening.toList).upTo r with ⟨x, y⟩
    obtain ⟨rfl, hx, hy⟩ := Pattern.upTo_spec rfl hu
    have hn : (Pattern.opening d.opening.toList).here (a :: (x ++ y)) = none := by
      rw [← Option.not_isSome_iff_eq_none, Pattern.opening_isSome]
      exact ha
    change Lexeme.read d pos (a :: x ++ y) = _
    rw [read_text (Pattern.misses_cons.2 ⟨hn, hx⟩) hy]
    change _ = Cursor.char pos a :: Lexeme.read d (pos + a.utf8Size) (x ++ y)
    rw [read_text hx hy, byteLength_cons, ← Nat.add_assoc]
    rfl
  | @tag d d' pos m u sigil body r l hm hne hr hl =>
    obtain ⟨a, m, rfl⟩ := List.exists_cons_of_ne_nil hne
    have hp : pos + byteLength (a :: m ++ (u ++ r)) - byteLength r =
        pos + byteLength (a :: m ++ u) := by
      simp only [byteLength_append]; omega
    change Lexeme.read d pos _ = _
    rw [read_here (by rw [hm]; rfl)]
    simp only [fromTag, Pattern.take_of_here hm, hr, hp, hl]
    rfl

theorem Stop.read {c : Cursor} {ls : List Lexeme} (h : Stop c ls) : c.read = ls := by
  cases h with
  | done => simp [Cursor.read, Lexeme.read]
  | @unclosed d pos m s sigil r hm hne hr =>
    obtain ⟨a, m, rfl⟩ := List.exists_cons_of_ne_nil hne
    change Lexeme.read d pos _ = _
    rw [read_here (by rw [hm]; rfl)]
    simp only [fromTag, Pattern.take_of_here hm, hr]
  | @blocked d pos s hd hs hf =>
    have hm : (Pattern.opening d.opening.toList).here s = some ([], s) := by
      have := Pattern.opening_eq (w := []) (b := []) (by simp [Blank]) hf
      simpa [hd] using this
    change Lexeme.read d pos s = []
    rw [read_here (by rw [hm]; rfl)]
    simp only [fromTag, Pattern.take_of_here hm]

theorem step_or_stop (c : Cursor) : (∃ u l c', Step c u l c') ∨ ∃ ls, Stop c ls := by
  obtain ⟨d, pos, s⟩ := c
  cases h : (Pattern.opening d.opening.toList).here s with
  | none =>
    cases s with
    | nil => exact Or.inr ⟨_, .done⟩
    | cons a r =>
      refine Or.inl ⟨_, _, _, .char ?_⟩
      rw [← Pattern.opening_isSome, h]
      simp
  | some x =>
    obtain ⟨m, t⟩ := x
    obtain ⟨rfl, hf, b, hb, hm⟩ := Pattern.opening_here h
    by_cases hne : m = []
    · subst hne
      have hd : d.opening = "" := by
        have := (List.append_eq_nil_iff.1 hm.symm).1
        simpa using this
      cases t with
      | nil => exact Or.inr ⟨_, .done⟩
      | cons a t => exact Or.inr ⟨_, .blocked hd (by simp) hf⟩
    · cases ht : TagRead.read d.closing.toList t with
      | unclosed sigil r => exact Or.inr ⟨_, .unclosed h hne ht⟩
      | closed sigil body r =>
        obtain ⟨u, rfl, -⟩ := TagRead.read_restrict (r := r) (z := []) (by simpa using ht)
        rw [List.append_nil] at h ht ⊢
        exact Or.inl ⟨_, _, _, .tag h hne ht rfl⟩

theorem Step.rest {c c' : Cursor} {u : List Char} {l : Lexeme} (h : Step c u l c') :
    c.rest = u ++ c'.rest ∧ c'.pos = c.pos + byteLength u ∧ u ≠ [] := by
  cases h with
  | char _ => exact ⟨rfl, by simp [byteLength], by simp⟩
  | tag _ hne _ _ => exact ⟨by simp, rfl, by simp [hne]⟩

theorem Run.rest {c c' : Cursor} {u : List Char} {ls : List Lexeme} (h : Run c u ls c') :
    c.rest = u ++ c'.rest ∧ c'.pos = c.pos + byteLength u := by
  induction h with
  | nil c => exact ⟨rfl, by simp [byteLength_nil]⟩
  | cons hs _ ih =>
    obtain ⟨h1, h2, -⟩ := hs.rest
    refine ⟨by rw [h1, ih.1, List.append_assoc], ?_⟩
    rw [ih.2, h2, byteLength_append, Nat.add_assoc]

theorem Run.start {d : Delimiters} {s u : List Char} {ls : List Lexeme} {c : Cursor}
    (h : Run ⟨d, 0, s⟩ u ls c) : s = u ++ c.rest ∧ c.pos = byteLength u := by
  obtain ⟨h1, h2⟩ := h.rest
  exact ⟨h1, h2.trans (Nat.zero_add _)⟩

theorem Run.read {c c' : Cursor} {u : List Char} {ls : List Lexeme} (h : Run c u ls c') :
    c.read = ls ++ c'.read := by
  induction h with
  | nil c => rfl
  | cons hs _ ih => rw [hs.read, ih]; rfl

theorem exists_run (c : Cursor) : ∃ u ls c' tail, Run c u ls c' ∧ Stop c' tail := by
  induction hn : c.rest.length using Nat.strong_induction_on generalizing c with
  | _ n ih =>
    rcases step_or_stop c with ⟨u, l, c', hs⟩ | ⟨ls, hs⟩
    · obtain ⟨hr, -, hu⟩ := hs.rest
      have hl : c'.rest.length < n := by
        have := List.length_pos_iff.2 hu
        rw [← hn, hr, List.length_append]
        omega
      obtain ⟨v, ls, c'', tail, hrun, hstop⟩ := ih _ hl c' rfl
      exact ⟨u ++ v, l :: ls, c'', tail, .cons hs hrun, hstop⟩
    · exact ⟨[], [], c, ls, .nil c, hs⟩

end Cursor

end Stencil
