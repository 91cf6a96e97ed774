import Stencil.Proofs.Template.Runs

/-!
# The delimiters in force

A set-delimiter token spells the pair it puts in force, so the delimiters at any
place are told by the tokens before it. A pair that a tag puts in force is made
of two words, neither empty and neither with a blank.
-/

set_option autoImplicit false

namespace Stencil

open Text

namespace Text

theorem cutAt_of_none {p : Char → Bool} {s : List Char} (h : ∀ c ∈ s, p c = false) :
    cutAt p s = [s] := by
  induction s with
  | nil => rfl
  | cons c s ih =>
    have hc : p c = false := h c (by simp)
    simp [cutAt, hc, ih fun d hd => h d (by simp [hd])]

theorem cutAt_ne_nil (p : Char → Bool) (s : List Char) : cutAt p s ≠ [] := by
  cases s with
  | nil => simp [cutAt]
  | cons c s =>
    rw [cutAt]
    split
    · simp
    · split <;> simp

theorem cutAt_cut {p : Char → Bool} {a : Char} (ha : p a = true) (s t : List Char) :
    cutAt p (s ++ a :: t) = cutAt p s ++ cutAt p t := by
  induction s with
  | nil => simp [cutAt, ha]
  | cons c s ih =>
    rw [List.cons_append, cutAt, cutAt, ih]
    split
    · rfl
    · obtain ⟨w, ws, hw⟩ := List.exists_cons_of_ne_nil (cutAt_ne_nil p s)
      rw [hw]
      rfl

theorem cutAt_append {p : Char → Bool} {s t : List Char} {a : Char}
    (h : ∀ c ∈ s, p c = false) (ha : p a = true) : cutAt p (s ++ a :: t) = s :: cutAt p t := by
  rw [cutAt_cut ha, cutAt_of_none h, List.singleton_append]

theorem cutAt_free {p : Char → Bool} {s w : List Char} (h : w ∈ cutAt p s) :
    ∀ c ∈ w, p c = false := by
  induction s generalizing w with
  | nil =>
    obtain rfl : w = [] := by simpa [cutAt] using h
    simp
  | cons a s ih =>
    rw [cutAt] at h
    split at h
    · rcases List.mem_cons.1 h with rfl | h
      · simp
      · exact ih h
    · next ha =>
      have ha' : p a = false := by simpa using ha
      split at h
      · obtain rfl : w = [a] := by simpa using h
        simpa using ha'
      · next v vs hv =>
        rcases List.mem_cons.1 h with rfl | h
        · intro c hc
          rcases List.mem_cons.1 hc with rfl | hc
          · exact ha'
          · exact ih (by rw [hv]; simp) c hc
        · exact ih (by rw [hv]; simp [h])

theorem mem_of_mem_cutAt {p : Char → Bool} {s w : List Char} (hw : w ∈ cutAt p s) {c : Char}
    (hc : c ∈ w) : c ∈ s := by
  induction s generalizing w with
  | nil =>
    obtain rfl : w = [] := by simpa [cutAt] using hw
    cases hc
  | cons a s ih =>
    rw [cutAt] at hw
    split at hw
    · rcases List.mem_cons.1 hw with rfl | hw
      · cases hc
      · exact List.mem_cons_of_mem a (ih hw hc)
    · split at hw
      · obtain rfl : w = [a] := by simpa using hw
        rw [List.mem_singleton.1 hc]
        exact List.mem_cons_self
      · next v vs hv =>
        rcases List.mem_cons.1 hw with rfl | hw
        · rcases List.mem_cons.1 hc with rfl | hc
          · exact List.mem_cons_self
          · exact List.mem_cons_of_mem a (ih (by rw [hv]; exact List.mem_cons_self) hc)
        · exact List.mem_cons_of_mem a (ih (by rw [hv]; exact List.mem_cons_of_mem v hw) hc)

theorem words_solid {s w : List Char} (h : w ∈ words s) : Solid w ∧ w ≠ [] := by
  obtain ⟨hm, hn⟩ := List.mem_filter.1 h
  exact ⟨cutAt_free hm, by simpa using hn⟩

theorem words_pair {o c : List Char} (ho : Solid o) (hc : Solid c) (ho' : o ≠ []) (hc' : c ≠ []) :
    words (o ++ ' ' :: c) = [o, c] := by
  rw [words, cutAt_append ho (by decide), cutAt_of_none hc]
  simp [ho', hc']

end Text

namespace Delimiters

structure Present (d : Delimiters) : Prop where
  opening_ne : d.opening ≠ ""
  closing_ne : d.closing ≠ ""

structure Words (d : Delimiters) : Prop where
  opening_solid : Solid d.opening.toList
  closing_solid : Solid d.closing.toList
  opening_ne : d.opening.toList ≠ []
  closing_ne : d.closing.toList ≠ []

theorem Words.present {d : Delimiters} (h : d.Words) : d.Present where
  opening_ne := fun he => h.opening_ne (by rw [he]; rfl)
  closing_ne := fun he => h.closing_ne (by rw [he]; rfl)

theorem parse?_words {s : List Char} {d : Delimiters} (h : parse? s = some d) : d.Words := by
  unfold parse? at h
  split at h
  · next o c hw =>
    cases h
    have ho := words_solid (s := s) (w := o) (by rw [hw]; simp)
    have hc := words_solid (s := s) (w := c) (by rw [hw]; simp)
    refine ⟨?_, ?_, ?_, ?_⟩ <;> rw [String.toList_ofList]
    exacts [ho.1, hc.1, ho.2, hc.2]
  · cases h

theorem Words.parse?_text {d : Delimiters} (h : d.Words) : parse? d.text.toList = some d := by
  have ht : d.text.toList = d.opening.toList ++ ' ' :: d.closing.toList := by
    simp [text]
  rw [parse?, ht, words_pair h.opening_solid h.closing_solid h.opening_ne h.closing_ne]
  simp

end Delimiters

namespace Token

def putsInForce (d : Delimiters) (t : Token) : Delimiters :=
  if t.kind = .setDelimiters then (Delimiters.parse? t.value.toList).getD d else d

def inForce (d : Delimiters) (ts : List Token) : Delimiters := ts.foldl putsInForce d

theorem inForce_append (d : Delimiters) (ts us : List Token) :
    inForce d (ts ++ us) = inForce (inForce d ts) us := by simp [inForce]

end Token

namespace Lexeme

theorem tokens_cons (l : Lexeme) (ls : List Lexeme) :
    tokens (l :: ls) = l.token?.toList ++ tokens ls := by
  cases l <;> rfl

theorem tokens_append (ls ms : List Lexeme) : tokens (ls ++ ms) = tokens ls ++ tokens ms :=
  List.filterMap_append

theorem problems_append (ls ms : List Lexeme) :
    problems (ls ++ ms) = problems ls ++ problems ms :=
  List.filterMap_append

theorem tokens_map (ts : List Token) : tokens (ts.map token) = ts := by
  induction ts with
  | nil => rfl
  | cons t ts ih => rw [List.map_cons, tokens_cons, ih]; rfl

theorem problems_map (ts : List Token) : problems (ts.map token) = [] := by
  rw [problems, List.filterMap_eq_nil_iff]
  intro l hl
  obtain ⟨t, -, rfl⟩ := List.mem_map.1 hl
  rfl

theorem ofTag_cases (d : Delimiters) (span : Span) (sigil body : List Char) :
    (∃ d', TokenKind.ofSigil sigil = .setDelimiters ∧ Delimiters.parse? (trim body) = some d' ∧
      ofTag d span sigil body = (token ⟨.setDelimiters, d'.text, span⟩, d')) ∨
    (TokenKind.ofSigil sigil = .setDelimiters ∧ Delimiters.parse? (trim body) = none ∧
      ofTag d span sigil body =
        (problem (.invalidDelimiters (String.ofList (trim body)) span), d)) ∨
    (TokenKind.ofSigil sigil ≠ .setDelimiters ∧ TokenKind.ofSigil sigil ≠ .comment ∧
      trim body = [] ∧ ofTag d span sigil body = (problem (.emptyTag span), d)) ∨
    (TokenKind.ofSigil sigil ≠ .setDelimiters ∧
      (TokenKind.ofSigil sigil = .comment ∨ trim body ≠ []) ∧
      ofTag d span sigil body =
        (token ⟨TokenKind.ofSigil sigil, String.ofList (trim body), span⟩, d)) := by
  simp only [ofTag]
  split
  · next h =>
    cases hp : Delimiters.parse? (trim body) with
    | some d' => exact Or.inl ⟨d', h, rfl, rfl⟩
    | none => exact Or.inr (Or.inl ⟨h, rfl, rfl⟩)
  · next h => exact Or.inr (Or.inr (Or.inr ⟨by rw [h]; decide, Or.inl h, by rw [h]⟩))
  · next h1 h2 =>
    by_cases he : trim body = []
    · exact Or.inr (Or.inr (Or.inl ⟨h1, h2, he, by simp [he]⟩))
    · exact Or.inr (Or.inr (Or.inr ⟨h1, Or.inr he, by simp [he]⟩))

/-- The delimiters behind a closed tag are those its token puts in force. -/
theorem ofTag_inForce {d d' : Delimiters} {span : Span} {sigil body : List Char} {l : Lexeme}
    (h : ofTag d span sigil body = (l, d')) : d' = Token.inForce d (tokens [l]) := by
  rcases ofTag_cases d span sigil body with ⟨e, -, hp, he⟩ | ⟨-, -, he⟩ | ⟨-, -, -, he⟩ |
    ⟨hk, -, he⟩
  · cases he.symm.trans h
    have ht := (Delimiters.parse?_words hp).parse?_text
    simp [tokens, token?, Token.inForce, Token.putsInForce, ht]
  · cases he.symm.trans h
    rfl
  · cases he.symm.trans h
    rfl
  · cases he.symm.trans h
    simp [tokens, token?, Token.inForce, Token.putsInForce, hk]

theorem ofTag_words {d d' : Delimiters} {span : Span} {sigil body : List Char} {l : Lexeme}
    (h : ofTag d span sigil body = (l, d')) : d' = d ∨ d'.Words := by
  rcases ofTag_cases d span sigil body with ⟨e, -, hp, he⟩ | ⟨-, -, he⟩ | ⟨-, -, -, he⟩ |
    ⟨-, -, he⟩
  · cases he.symm.trans h
    exact Or.inr (Delimiters.parse?_words hp)
  all_goals
    cases he.symm.trans h
    exact Or.inl rfl

end Lexeme

namespace Cursor

theorem Step.inForce {c c' : Cursor} {u : List Char} {l : Lexeme} (h : Step c u l c') :
    c'.delimiters = Token.inForce c.delimiters (Lexeme.tokens [l]) := by
  cases h with
  | char _ => simp [Lexeme.tokens, Lexeme.token?, Cursor.char, Token.inForce, Token.putsInForce]
  | tag _ _ _ hl => exact Lexeme.ofTag_inForce hl

theorem Run.inForce {c c' : Cursor} {u : List Char} {ls : List Lexeme} (h : Run c u ls c') :
    c'.delimiters = Token.inForce c.delimiters (Lexeme.tokens ls) := by
  induction h with
  | nil c => rfl
  | @cons c c' c'' u v l ls hs _ ih =>
    rw [ih, hs.inForce, ← Token.inForce_append, ← Lexeme.tokens_append]
    rfl

theorem Step.present {c c' : Cursor} {u : List Char} {l : Lexeme} (h : Step c u l c')
    (hc : c.delimiters.Present) : c'.delimiters.Present := by
  cases h with
  | char _ => exact hc
  | tag _ _ _ hl =>
    rcases Lexeme.ofTag_words hl with rfl | hw
    · exact hc
    · exact hw.present

theorem Run.present {c c' : Cursor} {u : List Char} {ls : List Lexeme} (h : Run c u ls c')
    (hc : c.delimiters.Present) : c'.delimiters.Present := by
  induction h with
  | nil c => exact hc
  | cons hs _ ih => exact ih (hs.present hc)

end Cursor

end Stencil
