import Stencil.Proofs.Template.Locality
import Stencil.Template.Parse

/-!
# A reading accounts for its source

The tokens of a source and the tags that yield none lie end to end over it. Text
tokens are single characters, and no opening delimiter is among them unless a tag
is not closed; every other token covers a tag as it has to be written.
-/

set_option autoImplicit false

namespace Stencil

open Text

def Span.Tiles : (a : Nat) → List Span → (b : Nat) → Prop
  | a, [], b => a = b
  | a, s :: ss, b =>
    s.start.toNat = a ∧ 0 < s.length.toNat ∧ Tiles (s.start.toNat + s.length.toNat) ss b

namespace Lexeme

/-- The span of a token or of a tag that yields none. A tag that is not closed
has its text among the tokens. -/
def tile? : Lexeme → Option Span
  | token t => some t.span
  | problem (.emptyTag s) | problem (.invalidDelimiters _ s) => some s
  | problem _ => none

/-- The tag of a token: delimiters, sigil and text with blanks between them. The
brace of a brace tag stands right before the closing delimiter, unless that one
starts with a blank itself. -/
inductive Spelled (d : Delimiters) (kind : TokenKind) (value : List Char) : List Char → Prop
  | plain {b sigil c e : List Char} : Blank b → Blank c → Blank e →
      (sigil = [] ∨ ∃ x, sigil = [x] ∧ TokenKind.isSigil x) → sigil ≠ ['\x7b'] →
      TokenKind.ofSigil sigil = kind → trim value = value →
      Clear d.closing.toList value (e ++ d.closing.toList) →
      Spelled d kind value
        (d.opening.toList ++ b ++ sigil ++ c ++ value ++ e ++ d.closing.toList)
  | braced {b c e f : List Char} : Blank b → Blank c → Blank e → Blank f →
      (f ≠ [] → ¬ Flush d.closing.toList) → kind = .unescaped → trim value = value →
      Spelled d kind value
        (d.opening.toList ++ b ++ ['\x7b'] ++ c ++ value ++ e ++ ['\x7d'] ++ f ++ d.closing.toList)

structure Accounts (d : Delimiters) (s : List Char) (ls : List Lexeme) : Prop where
  tiles : Span.Tiles 0 (ls.filterMap tile?) (byteLength s)
  character : ∀ t ∈ tokens ls, t.kind = .text →
    ∃ a, t.value = String.singleton a ∧ t.span.slice s = [a]
  unclosed_last : ∀ pre post e sp, problems ls = pre ++ .unclosedTag e sp :: post → post = []
  unclosed_text : ∀ pre post e sp, ls = pre ++ .problem (.unclosedTag e sp) :: post →
    ∃ a b, s = a ++ b ∧ sp.start.toNat = byteLength a ∧
      (Token.inForce d (tokens pre)).opening.toList <+: b ∧ post = ofText (byteLength a) b
  literal : ∀ pre post t, ls = pre ++ .token t :: post → t.kind = .text →
    (∀ e sp, .problem (.unclosedTag e sp) ∉ pre) →
    ∃ a b, s = a ++ b ∧ t.span.start.toNat = byteLength a ∧
      ¬ (Token.inForce d (tokens pre)).opening.toList <+: b
  spelled : ∀ pre post t, ls = pre ++ .token t :: post → t.kind ≠ .text →
    t.kind ≠ .setDelimiters →
    Spelled (Token.inForce d (tokens pre)) t.kind t.value.toList (t.span.slice s)

end Lexeme

namespace Span

theorem Tiles.append {a b c : Nat} {ss ts : List Span} (h : Tiles a ss b) (k : Tiles b ts c) :
    Tiles a (ss ++ ts) c := by
  induction ss generalizing a with
  | nil => cases h; exact k
  | cons s ss ih => exact ⟨h.1, h.2.1, ih h.2.2⟩

theorem Tiles.single {a b : Nat} (h : a < b) (hb : b < 2 ^ 32) : Tiles a [ofBounds a b] b := by
  have hs := start_toNat (Nat.le_of_lt h) hb
  have hl := length_toNat (Nat.le_of_lt h) hb
  refine ⟨hs, by omega, ?_⟩
  rw [hs, hl]
  exact Nat.add_sub_cancel' (Nat.le_of_lt h)

end Span

namespace Lexeme

theorem ofText_tiles {pos : Nat} {s : List Char} (h : pos + byteLength s < 2 ^ 32) :
    Span.Tiles pos ((ofText pos s).filterMap tile?) (pos + byteLength s) := by
  induction s generalizing pos with
  | nil => rfl
  | cons c s ih =>
    rw [byteLength_cons] at h
    have hc := c.utf8Size_pos
    have hs := Span.Tiles.single (a := pos) (b := pos + c.utf8Size) (by omega) (by omega)
    have hi := @ih (pos + c.utf8Size) (by omega)
    have hr := hs.append hi
    rw [byteLength_cons, ← Nat.add_assoc]
    exact hr

theorem mem_ofText {pos : Nat} {s : List Char} {l : Lexeme} (h : l ∈ ofText pos s) :
    ∃ a c b, s = a ++ c :: b ∧ l = Cursor.char (pos + byteLength a) c := by
  induction s generalizing pos with
  | nil => cases h
  | cons c s ih =>
    rcases List.mem_cons.1 h with rfl | h
    · exact ⟨[], c, s, rfl, rfl⟩
    · obtain ⟨a, x, b, rfl, rfl⟩ := ih h
      exact ⟨c :: a, x, b, rfl, by rw [byteLength_cons, Nat.add_assoc]⟩

end Lexeme

namespace Cursor

open Lexeme

theorem Step.tile {c c' : Cursor} {u : List Char} {l : Lexeme} (h : Step c u l c') :
    l.tile? = some (.ofBounds c.pos c'.pos) := by
  cases h with
  | char _ => rfl
  | @tag d d' pos m u sigil body r l _ _ _ hl =>
    rcases ofTag_cases d (.ofBounds pos (pos + byteLength (m ++ u))) sigil body with
      ⟨e, -, -, he⟩ | ⟨-, -, he⟩ | ⟨-, -, -, he⟩ | ⟨-, -, he⟩ <;>
    · cases he.symm.trans hl
      rfl

theorem Run.tiles {c c' : Cursor} {u : List Char} {ls : List Lexeme} (h : Run c u ls c')
    (hc : c.pos + byteLength c.rest < 2 ^ 32) :
    Span.Tiles c.pos (ls.filterMap tile?) c'.pos := by
  induction h with
  | nil c => rfl
  | @cons c c' c'' u v l ls hs _ ih =>
    obtain ⟨h1, h2, h3⟩ := hs.rest
    have hu := byteLength_pos h3
    rw [h1, byteLength_append] at hc
    rw [List.filterMap_cons_some hs.tile]
    exact (Span.Tiles.single (by omega) (by omega)).append (ih (by omega))

theorem Stop.tiles {c : Cursor} {ls : List Lexeme} (h : Stop c ls)
    (hd : c.delimiters.Present) (hc : c.pos + byteLength c.rest < 2 ^ 32) :
    Span.Tiles c.pos (ls.filterMap tile?) (c.pos + byteLength c.rest) := by
  cases h with
  | done => rfl
  | unclosed _ _ _ => exact ofText_tiles hc
  | blocked he _ _ => exact absurd he hd.opening_ne

/-- With an opening delimiter nothing of the source is left out. -/
theorem read_tiles {c : Cursor} (hd : c.delimiters.Present)
    (hc : c.pos + byteLength c.rest < 2 ^ 32) :
    Span.Tiles c.pos (c.read.filterMap tile?) (c.pos + byteLength c.rest) := by
  obtain ⟨u, ls, c', tail, hr, hs⟩ := exists_run c
  obtain ⟨h1, h2⟩ := hr.rest
  have hl : c.pos + byteLength c.rest = c'.pos + byteLength c'.rest := by
    rw [h1, h2, byteLength_append, Nat.add_assoc]
  rw [hr.read, hs.read, List.filterMap_append]
  refine (hr.tiles hc).append ?_
  rw [hl] at hc ⊢
  exact hs.tiles (hr.present hd) hc

end Cursor

/-! ## How tags are written -/

namespace TagRead

theorem sigil_cases {s sigil r : List Char} (h : sigilHere.take s = (sigil, r)) :
    sigil = [] ∨ ∃ x, sigil = [x] ∧ TokenKind.isSigil x := by
  cases s with
  | nil => cases h; exact Or.inl rfl
  | cons a s =>
    by_cases ha : TokenKind.isSigil a
    · simp only [sigilHere, Pattern.take, Pattern.oneOf, ha, if_true, Option.getD_some] at h
      cases h
      exact Or.inr ⟨a, rfl, ha⟩
    · simp only [sigilHere, Pattern.take, Pattern.oneOf, ha] at h
      cases h
      exact Or.inl rfl

/-- Blanks before the end of a tag belong to its end, not to its text. -/
theorem flush_reverse {w b r : List Char} (hb : (Pattern.closing w).Misses b r)
    (hr : ((Pattern.closing w).here r).isSome) : Flush b.reverse := by
  intro a t h
  by_contra ha
  have hc : isBlank a = true := by simpa using ha
  obtain rfl : b = t.reverse ++ [a] := by simpa using congrArg List.reverse h
  obtain ⟨e, q, he, rfl, hq⟩ := Pattern.blanksThen_isSome.1 hr
  have hs : ((Pattern.closing w).here ([a] ++ (e ++ q))).isSome :=
    Pattern.blanksThen_isSome.2 ⟨a :: e, q, by simpa [Blank, hc] using he, rfl, hq⟩
  rw [hb t.reverse [a] rfl (by simp)] at hs
  cases hs

theorem clear_of_misses {w b e r : List Char} (h : (Pattern.closing w).Misses b (e ++ w ++ r)) :
    Clear w b (e ++ w) := by
  intro x y hb hy hp
  have hs : ((Pattern.closing w).here (y ++ (e ++ w ++ r))).isSome :=
    Pattern.blanksThen_isSome.2 ⟨[], _, by simp [Blank], rfl, hp.trans ⟨r, by simp⟩⟩
  rw [h x y hb hy] at hs
  cases hs

theorem flush_left {b t : List Char} (h : Flush (b ++ t)) : Flush b := by
  rintro a r rfl
  exact h a (r ++ t) rfl

theorem Ends.spelled {w sigil s b m r : List Char} (h : Ends w sigil s b m r) (hs : Flush s)
    (hd : sigil ≠ ['=']) (hne : w ≠ []) :
    trim b = b ∧
    ((sigil ≠ ['\x7b'] ∧ ∃ e, Blank e ∧ s = b ++ e ++ w ++ r ∧ Clear w b (e ++ w)) ∨
      (sigil = ['\x7b'] ∧ ∃ e f, Blank e ∧ Blank f ∧ (f ≠ [] → ¬ Flush w) ∧
        s = b ++ e ++ ['\x7d'] ++ f ++ w ++ r)) := by
  have hw := Pattern.blanksThen_some h.here
  cases h with
  | plain h1 h2 hb hm =>
    obtain ⟨-, e, he, rfl⟩ := hw
    exact ⟨trim_of_flush (flush_left hs) (flush_reverse hb (closing_isSome hm)),
      Or.inl ⟨h2, e, he, by simp, clear_of_misses hb⟩⟩
  | @braced _ e _ _ he hb hp hm =>
    obtain ⟨-, f, hf, rfl⟩ := hw
    refine ⟨trim_of_flush (flush_left hs) (flush_reverse hb ?_), Or.inr ⟨rfl, e, f, he, hf, ?_, by simp⟩⟩
    · exact Pattern.blanksThen_isSome.2 ⟨e, _, he, rfl, by simpa using hp⟩
    · -- a blank right behind the brace is where the closing delimiter starts
      intro hf' hfl
      obtain ⟨a, f, rfl⟩ := List.exists_cons_of_ne_nil hf'
      obtain ⟨x, w, rfl⟩ := List.exists_cons_of_ne_nil hne
      obtain ⟨q, hq⟩ := hp
      obtain ⟨rfl, -⟩ := List.cons.inj hq
      have ha := hf x (by simp)
      rw [hfl x w rfl] at ha
      cases ha
  | delimiters _ _ _ _ => exact absurd rfl hd

end TagRead

theorem TokenKind.ofSigil_ne_text (sigil : List Char) : ofSigil sigil ≠ .text := by
  unfold ofSigil
  split <;> decide

namespace Cursor

open Lexeme TagRead

theorem Step.spelled {c c' : Cursor} {u : List Char} {t : Token} (h : Step c u (.token t) c')
    (hc : c.delimiters.Present) (ht : t.kind ≠ .text) (hd : t.kind ≠ .setDelimiters) :
    Spelled c.delimiters t.kind t.value.toList u := by
  cases h with
  | char _ => exact absurd rfl ht
  | @tag d d' pos m u sigil body r l hm hne hr hl =>
    obtain ⟨hk, rfl⟩ : TokenKind.ofSigil sigil ≠ .setDelimiters ∧
        t = ⟨TokenKind.ofSigil sigil, String.ofList (trim body),
          .ofBounds pos (pos + byteLength (m ++ u))⟩ := by
      rcases ofTag_cases d (.ofBounds pos (pos + byteLength (m ++ u))) sigil body with
        ⟨e, -, -, he⟩ | ⟨-, -, he⟩ | ⟨-, -, -, he⟩ | ⟨hk, -, he⟩
      · cases he.symm.trans hl
        exact absurd rfl hd
      · cases he.symm.trans hl
      · cases he.symm.trans hl
      · cases he.symm.trans hl
        exact ⟨hk, rfl⟩
    obtain ⟨-, -, b, hb, rfl⟩ := Pattern.opening_here hm
    obtain ⟨e, q, m', h1, he, hf, hend, -⟩ := read_closed_iff.1 hr
    have hap := Pattern.take_append (Pattern.oneOf_exact TokenKind.isSigil) (u ++ r)
    rw [← sigilHere, h1] at hap
    obtain ⟨htrim, hcase⟩ := hend.spelled hf (by rintro rfl; exact hk rfl)
      (by simpa using hc.closing_ne)
    rw [String.toList_ofList, htrim]
    rcases hcase with ⟨hs, f, hf', rfl, hclear⟩ | ⟨rfl, f, g, hf', hg, hfl, rfl⟩
    · obtain rfl : u = sigil ++ e ++ body ++ f ++ d.closing.toList := by
        apply @List.append_cancel_right _ _ r
        rw [← hap]; simp
      have := Spelled.plain hb he hf' (sigil_cases h1) hs rfl htrim hclear
      simpa using this
    · obtain rfl : u = ['\x7b'] ++ e ++ body ++ f ++ ['\x7d'] ++ g ++ d.closing.toList := by
        apply @List.append_cancel_right _ _ r
        rw [← hap]; simp
      have hk' : TokenKind.ofSigil ['\x7b'] = .unescaped := rfl
      have hs := @Spelled.braced d _ _ b e f g hb he hf' hg hfl hk' htrim
      simpa using hs

theorem Step.literal {c c' : Cursor} {u : List Char} {t : Token} (h : Step c u (.token t) c')
    (ht : t.kind = .text) : ∃ a, u = [a] ∧ t.value = String.singleton a ∧
      ¬ c.delimiters.opening.toList <+: c.rest := by
  cases h with
  | char ha => exact ⟨_, rfl, rfl, ha⟩
  | @tag d d' pos m u sigil body r l _ _ _ hl =>
    exfalso
    rcases ofTag_cases d (.ofBounds pos (pos + byteLength (m ++ u))) sigil body with
      ⟨e, -, -, he⟩ | ⟨-, -, he⟩ | ⟨-, -, -, he⟩ | ⟨-, -, he⟩
    · cases he.symm.trans hl
      cases ht
    · cases he.symm.trans hl
    · cases he.symm.trans hl
    · cases he.symm.trans hl
      exact TokenKind.ofSigil_ne_text sigil ht

theorem Step.place {d : Delimiters} {s u v : List Char} {pre : List Lexeme} {l : Lexeme}
    {c c' : Cursor} {sp : Span} (hr : Run ⟨d, 0, s⟩ u pre c) (hs : Step c v l c')
    (hl : l.tile? = some sp) (h : byteLength s < 2 ^ 32) :
    s = u ++ c.rest ∧ sp.start.toNat = byteLength u ∧ sp.slice s = v := by
  obtain ⟨h1, hp⟩ := hr.start
  obtain ⟨h3, h4, -⟩ := hs.rest
  obtain rfl : Span.ofBounds c.pos c'.pos = sp := Option.some.inj (hs.tile.symm.trans hl)
  rw [h1, h3, byteLength_append, byteLength_append] at h
  refine ⟨h1, ?_, ?_⟩
  · rw [Span.start_toNat (by omega) (by omega), hp]
  · rw [h4, hp, h1, h3]
    exact Span.slice_ofBounds u v c'.rest (by omega)

/-- The text from a tag on that is not closed, character by character. -/
theorem Stop.character {d : Delimiters} {s u : List Char} {ls : List Lexeme} {c : Cursor}
    {t : Token} (hr : Run ⟨d, 0, s⟩ u ls c) (ht : Lexeme.token t ∈ ofText c.pos c.rest)
    (h : byteLength s < 2 ^ 32) :
    t.kind = .text ∧ ∃ a, t.value = String.singleton a ∧ t.span.slice s = [a] := by
  obtain ⟨h1, hp⟩ := hr.start
  obtain ⟨a, x, b, hc, hl⟩ := mem_ofText ht
  cases hl
  have hs : s = (u ++ a) ++ ([x] ++ b) := by
    rw [h1, hc]; simp
  have hx : byteLength [x] = x.utf8Size := by simp [byteLength]
  refine ⟨rfl, x, rfl, ?_⟩
  rw [hs, byteLength_append, byteLength_append [x]] at h
  have := Span.slice_ofBounds (u ++ a) [x] b (by omega)
  rw [hs, hp, ← byteLength_append, ← hx]
  exact this

end Cursor

namespace Cursor

open Lexeme

theorem Stop.unclosed_text {c : Cursor} {e : String} {sp : Span} {ls : List Lexeme}
    (h : Stop c (.problem (.unclosedTag e sp) :: ls)) :
    ∃ v r, c.rest = v ++ r ∧ c.delimiters.opening.toList <+: v ∧
      sp = .ofBounds c.pos (c.pos + byteLength v) := by
  cases h with
  | @unclosed d pos m s sigil r hm _ hr =>
    obtain ⟨-, -, b, -, rfl⟩ := Pattern.opening_here hm
    obtain ⟨x, rfl⟩ := TagRead.read_unclosed hr
    have hlen : pos + byteLength (d.opening.toList ++ b ++ (x ++ r)) - byteLength r =
        pos + byteLength (d.opening.toList ++ b ++ x) := by
      simp only [byteLength_append]
      omega
    exact ⟨d.opening.toList ++ b ++ x, r, by simp, ⟨b ++ x, by simp⟩, by rw [hlen]⟩

section Source

variable {d : Delimiters} {s : List Char} {pre post : List Lexeme} {t : Token}

theorem source_character (h : byteLength s < 2 ^ 32)
    (hs : Lexeme.read d 0 s = pre ++ .token t :: post) (hk : t.kind = .text) :
    ∃ a, t.value = String.singleton a ∧ t.span.slice s = [a] := by
  rcases read_split (c := ⟨d, 0, s⟩) hs with ⟨u, c, v, c', hr, hstep, -⟩ |
    ⟨u, ls, c, e, sp, hr, -, ⟨-, hl, -⟩ | ⟨x, -, hx⟩⟩
  · obtain ⟨a, rfl, hv, -⟩ := hstep.literal hk
    exact ⟨a, hv, (Step.place hr hstep rfl h).2.2⟩
  · cases hl
  · exact (Stop.character hr (by rw [hx]; simp) h).2

theorem source_literal (h : byteLength s < 2 ^ 32)
    (hs : Lexeme.read d 0 s = pre ++ .token t :: post) (hk : t.kind = .text)
    (hno : ∀ e sp, .problem (.unclosedTag e sp) ∉ pre) :
    ∃ a b, s = a ++ b ∧ t.span.start.toNat = byteLength a ∧
      ¬ (Token.inForce d (tokens pre)).opening.toList <+: b := by
  rcases read_split (c := ⟨d, 0, s⟩) hs with ⟨u, c, v, c', hr, hstep, -⟩ |
    ⟨u, ls, c, e, sp, hr, -, ⟨-, hl, -⟩ | ⟨x, rfl, -⟩⟩
  · obtain ⟨h1, h2, -⟩ := Step.place hr hstep rfl h
    obtain ⟨a, -, -, hn⟩ := hstep.literal hk
    rw [hr.inForce] at hn
    exact ⟨u, c.rest, h1, h2, hn⟩
  · cases hl
  · exact absurd (by simp) (hno e sp)

theorem source_spelled (hd : d.Present) (h : byteLength s < 2 ^ 32)
    (hs : Lexeme.read d 0 s = pre ++ .token t :: post) (hk : t.kind ≠ .text)
    (hkd : t.kind ≠ .setDelimiters) :
    Spelled (Token.inForce d (tokens pre)) t.kind t.value.toList (t.span.slice s) := by
  rcases read_split (c := ⟨d, 0, s⟩) hs with ⟨u, c, v, c', hr, hstep, -⟩ |
    ⟨u, ls, c, e, sp, hr, -, ⟨-, hl, -⟩ | ⟨x, -, hx⟩⟩
  · have := hstep.spelled (hr.present hd) hk hkd
    rwa [hr.inForce, ← (Step.place hr hstep rfl h).2.2] at this
  · cases hl
  · exact absurd (Stop.character hr (by rw [hx]; simp) h).1 hk

theorem source_unclosed {e : String} {sp : Span} (h : byteLength s < 2 ^ 32)
    (hs : Lexeme.read d 0 s = pre ++ .problem (.unclosedTag e sp) :: post) :
    ∃ a b, s = a ++ b ∧ sp.start.toNat = byteLength a ∧
      (Token.inForce d (tokens pre)).opening.toList <+: b ∧ post = ofText (byteLength a) b := by
  rcases read_split (c := ⟨d, 0, s⟩) hs with ⟨-, c, v, c', -, hstep, -⟩ |
    ⟨u, ls, c, e', sp', hr, hstop, ⟨rfl, hl, rfl⟩ | ⟨x, -, hx⟩⟩
  · have := hstep.tile
    cases this
  · cases hl
    obtain ⟨h1, hp⟩ := hr.start
    obtain ⟨v, r, hv, hopen, rfl⟩ := hstop.unclosed_text
    have hrest : c.delimiters.opening.toList <+: c.rest := by
      rw [hv]
      exact hopen.trans (List.prefix_append v r)
    rw [h1, byteLength_append] at h
    rw [hr.inForce] at hrest
    exact ⟨u, c.rest, h1, (Span.clamp_toNat_of_lt (by omega)).trans hp, hrest, by rw [hp]⟩
  · have hm : Lexeme.problem (.unclosedTag e sp) ∈ ofText c.pos c.rest := by rw [hx]; simp
    obtain ⟨_, -, ht⟩ := List.mem_map.1 hm
    cases ht

end Source

end Cursor

namespace Lexeme

theorem mem_tokens {t : Token} {ls : List Lexeme} (h : t ∈ tokens ls) : token t ∈ ls := by
  obtain ⟨l, hl, he⟩ := List.mem_filterMap.1 h
  cases l with
  | token t' => cases he; exact hl
  | problem p => cases he

theorem mem_problems {p : Problem} {ls : List Lexeme} (h : p ∈ problems ls) : problem p ∈ ls := by
  obtain ⟨l, hl, he⟩ := List.mem_filterMap.1 h
  cases l with
  | token t => cases he
  | problem q => cases he; exact hl

theorem problems_split {ls : List Lexeme} {ps qs : List Problem} {p : Problem}
    (h : problems ls = ps ++ p :: qs) :
    ∃ pre post, ls = pre ++ problem p :: post ∧ problems post = qs := by
  obtain ⟨l₁, l₂, rfl, -, h₂⟩ := List.filterMap_eq_append_iff.1 h
  obtain ⟨l₃, l, l₄, rfl, -, hl, rfl⟩ := List.filterMap_eq_cons_iff.1 h₂
  cases l with
  | token t => cases hl
  | problem q =>
    cases hl
    exact ⟨l₁ ++ l₃, l₄, by simp, rfl⟩

end Lexeme

/-- A problem of a reading is that of a closed tag, or of one that is not closed. -/
theorem Cursor.problem_cases {c : Cursor} {p : Problem} (h : p ∈ Lexeme.problems c.read) :
    (∃ u ls c' v c'', Run c u ls c' ∧ Step c' v (.problem p) c'') ∨
    ∃ u ls c' e sp, Run c u ls c' ∧
      Stop c' (.problem (.unclosedTag e sp) :: Lexeme.ofText c'.pos c'.rest) ∧
      p = .unclosedTag e sp := by
  obtain ⟨ps, qs, hp⟩ := List.append_of_mem h
  obtain ⟨pre, post, hls, -⟩ := Lexeme.problems_split hp
  rcases read_split hls with ⟨u, c', v, c'', hrun, hstep, -⟩ |
    ⟨u, ls, c', e, sp, hrun, hstop, ⟨-, hl, -⟩ | ⟨x, -, hx⟩⟩
  · exact .inl ⟨u, pre, c', v, c'', hrun, hstep⟩
  · cases hl
    exact .inr ⟨u, ls, c', e, sp, hrun, hstop, rfl⟩
  · have hm : Lexeme.problem p ∈ Lexeme.ofText c'.pos c'.rest := by rw [hx]; simp
    obtain ⟨a, b, q, -, hl⟩ := Lexeme.mem_ofText hm
    cases hl

open Lexeme Cursor in
/-- Every source is accounted for: nothing of it is lost and nothing is made up. -/
theorem lexemes_account (d : Delimiters) (source : String) (hd : d.Present)
    (h : byteLength source.toList < 2 ^ 32) :
    Accounts d source.toList (Template.lexemes d source) where
  tiles := by
    have ht := read_tiles (c := ⟨d, 0, source.toList⟩) hd (by simpa using h)
    rw [Nat.zero_add] at ht
    exact ht
  character := by
    intro t ht hk
    obtain ⟨pre, post, hs⟩ := List.append_of_mem (mem_tokens ht)
    exact source_character h hs hk
  unclosed_last := by
    intro ps qs e sp hp
    obtain ⟨pre, post, hs, rfl⟩ := problems_split hp
    obtain ⟨a, b, -, -, -, rfl⟩ := source_unclosed h hs
    exact problems_map _
  unclosed_text _ _ _ _ hs := source_unclosed h hs
  literal _ _ _ hs hk hno := source_literal h hs hk hno
  spelled _ _ _ hs hk hkd := source_spelled hd h hs hk hkd

/-- A source with a delimiter change, a tag without a name and an unclosed tag. -/
theorem lexemes_account_unclosed :
    Delimiters.standard.Present ∧
    byteLength "a\x7b\x7b=<% %>=\x7d\x7d<%&b%><%%>c<% d".toList < 2 ^ 32 ∧
    Lexeme.Accounts .standard "a\x7b\x7b=<% %>=\x7d\x7d<%&b%><%%>c<% d".toList
      (Template.lexemes .standard "a\x7b\x7b=<% %>=\x7d\x7d<%&b%><%%>c<% d") :=
  ⟨⟨by decide, by decide⟩, by decide +kernel,
    lexemes_account .standard _ ⟨by decide, by decide⟩ (by decide +kernel)⟩

/-- With a blank for a closing delimiter the brace of a tag and the delimiter may
stand apart: all the blanks behind the brace belong to the tag. -/
theorem brace_apart_from_closing :
    Template.tokens ⟨"\x7b\x7b", " "⟩ "\x7b\x7b\x7bc\x7d   x" =
      [⟨.unescaped, "c", ⟨0, 8⟩⟩, ⟨.text, "x", ⟨8, 1⟩⟩] ∧
    ¬ ∃ b c e, Blank b ∧ Blank c ∧ Blank e ∧
      (⟨0, 8⟩ : Span).slice "\x7b\x7b\x7bc\x7d   x".toList =
        ['\x7b', '\x7b'] ++ b ++ ['\x7b'] ++ c ++ ['c'] ++ e ++ ['\x7d'] ++ [' '] := by
  constructor
  · decide +kernel
  · rintro ⟨b, c, e, -, -, -, h⟩
    have hs : (⟨0, 8⟩ : Span).slice "\x7b\x7b\x7bc\x7d   x".toList =
        ['\x7b', '\x7b', '\x7b', 'c', '\x7d', ' ', ' ', ' '] := by decide +kernel
    rw [hs] at h
    have := congrArg List.reverse h
    simp at this

end Stencil
