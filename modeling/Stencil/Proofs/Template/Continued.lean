import Stencil.Proofs.Template.Tiling
import Mathlib.Data.List.DropRight

/-!
# Texts one behind the other

A tag that ends inside a text ends there whatever follows the text, if its delimiters
are words: no blank of what stands before an end can be a part of it. So a text in which
every tag is closed is read in front of another one as it is read alone, and the other
one is read with the delimiters then in force, unless an opening delimiter starts in the
literal text at the end of the first.
-/

set_option autoImplicit false

namespace Stencil

open Text

namespace Pattern

theorem closing_here_append {w m r : List Char} (hw : Solid w) (hne : w ≠ [])
    (h : (closing w).here (m ++ r) = some (m, r)) (z : List Char) :
    (closing w).here (m ++ (r ++ z)) = some (m, r ++ z) := by
  obtain ⟨-, e, he, rfl⟩ := blanksThen_some h
  rw [List.append_assoc]
  exact blanksThen_solid hw hne he _

theorem closing_misses_append {w b m r : List Char} (hw : Solid w) (hne : w ≠ [])
    (hm : (closing w).here (m ++ r) = some (m, r)) (h : (closing w).Misses b (m ++ r))
    (z : List Char) : (closing w).Misses b (m ++ (r ++ z)) := by
  obtain ⟨-, e, -, rfl⟩ := blanksThen_some hm
  intro x y hxy hy
  by_contra hn
  obtain ⟨k, t, hk, hkt, ht⟩ := blanksThen_isSome.1 (Option.isSome_iff_ne_none.2 hn)
  suffices hs : ((closing w).here (y ++ (e ++ w ++ r))).isSome by
    rw [h x y hxy hy] at hs
    cases hs
  rw [List.append_assoc, ← List.append_assoc y] at hkt
  rcases List.append_eq_append_iff.1 hkt with ⟨v, rfl, hv⟩ | ⟨v, hv, rfl⟩
  · cases v with
    | nil => exact blanksThen_isSome.2 ⟨y ++ e, w ++ r, by simpa using hk, by simp, by simp⟩
    | cons c v =>
      obtain ⟨a, w', rfl⟩ := List.exists_cons_of_ne_nil hne
      obtain rfl : a = c := (List.cons.inj hv).1
      have h1 := hw a (by simp)
      rw [hk a (by simp)] at h1
      cases h1
  · have hp : w <+: v ++ w := by
      rw [← List.append_assoc] at ht
      exact List.prefix_of_prefix_length_le ht (List.prefix_append _ _) (by simp)
    refine blanksThen_isSome.2 ⟨k, v ++ (w ++ r), hk, ?_, ?_⟩
    · rw [List.append_assoc, ← List.append_assoc y, hv, List.append_assoc]
    · rw [← List.append_assoc]
      exact hp.trans (List.prefix_append _ _)

theorem oneOf_take_append {p : Char → Bool} {s m r : List Char} (hs : s ≠ [])
    (h : (oneOf p).take s = (m, r)) (z : List Char) : (oneOf p).take (s ++ z) = (m, r ++ z) := by
  obtain ⟨c, s, rfl⟩ := List.exists_cons_of_ne_nil hs
  rw [take, oneOf] at h ⊢
  by_cases hc : p c
  · simp only [hc, if_true, Option.getD_some, List.cons_append] at h ⊢
    cases h
    rfl
  · simp only [hc, Bool.false_eq_true, if_false, Option.getD_none, List.cons_append] at h ⊢
    cases h
    rfl

end Pattern

namespace TagRead

variable {w s sigil b m r u : List Char}

theorem Ends.append (hw : Solid w) (hne : w ≠ []) (h : Ends w sigil s b m r) (z : List Char) :
    Ends w sigil (s ++ z) b m (r ++ z) := by
  have hm := Pattern.closing_here_append hw hne h.here z
  cases h with
  | plain h1 h2 hb h0 =>
    have hb' := Pattern.closing_misses_append hw hne h0 hb z
    simpa using Ends.plain h1 h2 hb' hm
  | @braced _ e _ _ he hb hp _ =>
    obtain ⟨q, hq⟩ := hp
    have hbrace : Solid ('\x7d' :: w) := by
      intro c hc
      rcases List.mem_cons.1 hc with rfl | hc
      · decide
      · exact hw c hc
    have h0 := Pattern.blanksThen_solid hbrace (List.cons_ne_nil _ _) he q
    rw [← hq, ← List.cons_append, ← List.append_assoc] at hb
    rw [← List.append_assoc] at h0
    have hb' := Pattern.closing_misses_append hbrace (List.cons_ne_nil _ _) h0 hb z
    have hq' : w ++ (q ++ z) = m ++ (r ++ z) := by rw [← List.append_assoc, hq, List.append_assoc]
    rw [List.append_assoc, List.cons_append, hq'] at hb'
    simpa using Ends.braced he hb' ⟨_, hq'⟩ hm
  | @delimiters _ e g _ _ hb he hg h0 =>
    have heq : Solid ['='] := by decide
    have hb' := Pattern.closing_misses_append heq (List.cons_ne_nil _ _) he hb z
    have he' := Pattern.closing_here_append heq (List.cons_ne_nil _ _) he z
    have hg' := Pattern.closing_misses_append hw hne h0 hg z
    have hr : g ++ (m ++ r) ++ z = g ++ (m ++ (r ++ z)) := by simp
    rw [hr] at hb' he'
    simpa using Ends.delimiters hb' he' hg' hm

theorem Ends.ne_nil (h : Ends w sigil s b m r) (hm : m ≠ []) : s ≠ [] := by
  cases h <;> simp [hm]

theorem read_closed_ne (h : read w s = closed sigil b r) : s ≠ [] := by
  obtain ⟨c, t, m, h1, -, -, he, hm⟩ := read_closed_iff.1 h
  rintro rfl
  have hr : ([] : List Char) = c ++ t := congrArg Prod.snd h1
  exact he.ne_nil hm (List.append_eq_nil_iff.1 hr.symm).2

/-- A closed tag is the same whatever follows the text it ends in. -/
theorem read_append (hw : Solid w) (hne : w ≠ []) (h : read w s = closed sigil b r)
    (z : List Char) : read w (s ++ z) = closed sigil b (r ++ z) := by
  obtain ⟨c, t, m, h1, hc, hf, he, hm⟩ := read_closed_iff.1 h
  have h1' := Pattern.oneOf_take_append (read_closed_ne h) h1 z
  rw [List.append_assoc] at h1'
  have hf' := hf.append (he.ne_nil hm) z
  exact read_closed_iff.2 ⟨c, t ++ z, m, h1', hc, hf', he.append hw hne z, hm⟩

end TagRead

namespace Lexeme

def isText : Lexeme → Bool
  | token t => t.isText
  | problem _ => false

def lastText (ls : List Lexeme) : List Char :=
  (tokens (ls.rtakeWhile isText)).flatMap fun t => t.value.toList

theorem rtakeWhile_cons {α : Type} (p : α → Bool) (a : α) (l : List α) :
    (a :: l).rtakeWhile p = if l.all p then [a].rtakeWhile p ++ l else l.rtakeWhile p := by
  induction l using List.reverseRecOn with
  | nil => simp
  | append_singleton l b ih =>
    rw [← List.cons_append, List.rtakeWhile_concat, List.rtakeWhile_concat, ih]
    by_cases hb : p b <;> by_cases hl : l.all p <;> simp [hb, hl]

theorem lastText_all {ls : List Lexeme} (h : ls.all isText) :
    lastText ls = (tokens ls).flatMap fun t => t.value.toList := by
  rw [lastText, List.rtakeWhile_eq_self_iff.2 (List.all_eq_true.1 h)]

theorem lastText_suffix (l : Lexeme) (ls : List Lexeme) : lastText ls <:+ lastText (l :: ls) := by
  rw [lastText, lastText, rtakeWhile_cons]
  split
  · next h =>
    rw [tokens_append, List.flatMap_append, List.rtakeWhile_eq_self_iff.2 (List.all_eq_true.1 h)]
    exact List.suffix_append _ _
  · exact List.suffix_refl _

end Lexeme

namespace Cursor

open Lexeme

theorem Step.words {c c' : Cursor} {u : List Char} {l : Lexeme} (h : Step c u l c')
    (hc : c.delimiters.Words) : c'.delimiters.Words := by
  cases h with
  | char _ => exact hc
  | tag _ _ _ hl =>
    rcases ofTag_words hl with rfl | hw
    · exact hc
    · exact hw

theorem Step.text {c c' : Cursor} {u : List Char} {l : Lexeme} (h : Step c u l c')
    (ht : l.isText) :
    c'.delimiters = c.delimiters ∧ (tokens [l]).flatMap (fun t => t.value.toList) = u := by
  cases l with
  | problem p => cases ht
  | token t =>
    have hk : t.kind = .text := by simpa [isText, Token.isText] using ht
    obtain ⟨a, rfl, ha, -⟩ := h.literal hk
    refine ⟨?_, by simp [tokens, token?, ha]⟩
    rw [h.inForce]
    simp [tokens, token?, Token.inForce, Token.putsInForce, hk]

theorem Run.text {c c' : Cursor} {u : List Char} {ls : List Lexeme} (h : Run c u ls c')
    (ht : ls.all isText) :
    c'.delimiters = c.delimiters ∧ (tokens ls).flatMap (fun t => t.value.toList) = u := by
  induction h with
  | nil c => exact ⟨rfl, rfl⟩
  | @cons c c' c'' u v l ls hs _ ih =>
    obtain ⟨hl, hls⟩ : l.isText = true ∧ ls.all isText = true := by simpa using ht
    obtain ⟨hd, hu⟩ := hs.text hl
    obtain ⟨hd', hv⟩ := ih hls
    refine ⟨hd'.trans hd, ?_⟩
    rw [← hu, ← hv, ← List.flatMap_append, ← tokens_append]
    rfl

/-- Behind literal text stands the opening delimiter of the first tag. -/
theorem Run.opening {c c' : Cursor} {u : List Char} {ls : List Lexeme} (h : Run c u ls c')
    (ht : ls.all isText = false) :
    ∃ x y, c.rest = x ++ (c.delimiters.opening.toList ++ y) := by
  induction h with
  | nil c => cases ht
  | @cons c c' c'' u v l ls hs _ ih =>
    cases hs with
    | @char d pos a r _ =>
      obtain ⟨x, y, hr⟩ := ih (by simpa [isText, Token.isText, char] using ht)
      exact ⟨a :: x, y, congrArg (a :: ·) hr⟩
    | @tag d d' pos m u sigil body r l hm _ _ _ =>
      obtain ⟨-, -, b, -, rfl⟩ := Pattern.opening_here hm
      exact ⟨[], b ++ (u ++ r), by simp⟩

/-- A step in front of which no opening delimiter starts too early goes on in a longer text. -/
theorem Step.append {c c' : Cursor} {u : List Char} {l : Lexeme} (h : Step c u l c')
    (hw : c.delimiters.Words) {z : List Char}
    (hz : l.isText → ¬ c.delimiters.opening.toList <+: c.rest ++ z) :
    Step ⟨c.delimiters, c.pos, c.rest ++ z⟩ u l ⟨c'.delimiters, c'.pos, c'.rest ++ z⟩ := by
  cases h with
  | char _ => exact .char (hz rfl)
  | @tag d d' pos m u sigil body r l hm hne hr hl =>
    obtain ⟨-, hf, b, hb, rfl⟩ := Pattern.opening_here hm
    have hr' := TagRead.read_append hw.closing_solid hw.closing_ne hr z
    have hm' := Pattern.opening_eq (w := d.opening.toList) hb
      (hf.append (TagRead.read_closed_ne hr) z)
    simp only [List.append_assoc] at hm' hr' ⊢
    simpa using Step.tag (by simpa using hm') hne hr' hl

/-- A run to the end of a text goes on where another text follows. -/
theorem Run.append_rest {c c' : Cursor} {u : List Char} {ls : List Lexeme} (h : Run c u ls c')
    (hw : c.delimiters.Words) (hr : c'.rest = []) {z : List Char}
    (hz : Clear c'.delimiters.opening.toList (lastText ls) z) :
    Run ⟨c.delimiters, c.pos, c.rest ++ z⟩ u ls ⟨c'.delimiters, c'.pos, z⟩ := by
  induction h with
  | nil c =>
    rw [hr]
    exact .nil _
  | @cons c c' c'' u v l ls hs hrun ih =>
    obtain ⟨x, hx⟩ := lastText_suffix l ls
    have hz' : Clear c''.delimiters.opening.toList (lastText ls) z := fun x' y hxy hy =>
      hz (x ++ x') y (by rw [← hx, hxy, List.append_assoc]) hy
    refine .cons (hs.append hw fun hl => ?_) (ih (hs.words hw) hr hz')
    cases hall : ls.all isText with
    | true =>
      obtain ⟨hd, hu⟩ := (Run.cons hs hrun).text (by simp [hl, hall])
      have hlast : lastText (l :: ls) = c.rest := by
        rw [lastText_all (by simp [hl, hall]), hu, (Run.cons hs hrun).rest.1, hr, List.append_nil]
      rw [← hd]
      refine hz [] c.rest hlast ?_
      rw [hs.rest.1]
      simp [hs.rest.2.2]
    | false =>
      -- a tag follows, and what starts before its delimiter ends before the tag does
      cases l with
      | problem p => cases hl
      | token t =>
        obtain ⟨a, -, -, hnot⟩ := hs.literal (by simpa [isText, Token.isText] using hl)
        obtain ⟨x', y, hrest⟩ := hrun.opening hall
        rw [(hs.text hl).1] at hrest
        refine fun hp => hnot (List.prefix_of_prefix_length_le hp (List.prefix_append _ _) ?_)
        rw [hs.rest.1, hrest]
        simp only [List.length_append]
        omega

end Cursor

namespace Template

variable {d : Delimiters} {a b : String}

/-- What is read from a text and, behind it, from the text that follows. -/
theorem lexemes_append (hd : d.Words)
    (hc : ∀ e span, Problem.unclosedTag e span ∉ Lexeme.problems (lexemes d a))
    (ht : Clear (Token.inForce d (tokens d a)).opening.toList (Lexeme.lastText (lexemes d a))
      b.toList) :
    lexemes d (a ++ b) = lexemes d a ++
      (lexemes (Token.inForce d (tokens d a)) b).map (Lexeme.moved (byteLength a.toList)) := by
  obtain ⟨u, ls, c, tail, hrun, hstop⟩ := Cursor.exists_run ⟨d, 0, a.toList⟩
  have hread : lexemes d a = ls ++ tail := by
    rw [← hstop.read]
    exact hrun.read
  obtain ⟨rfl, hrest⟩ : tail = [] ∧ c.rest = [] := by
    cases hstop with
    | done => exact ⟨rfl, rfl⟩
    | @unclosed d' pos m s sigil r hm hne hr =>
      refine absurd ?_ (hc (TagRead.expected d'.closing sigil)
        (.ofBounds pos (pos + byteLength (m ++ s) - byteLength r)))
      rw [hread, Lexeme.problems, List.filterMap_append]
      exact List.mem_append_right _ List.mem_cons_self
    | blocked hempty _ _ => exact absurd hempty (hrun.present hd.present).opening_ne
  rw [List.append_nil] at hread
  obtain ⟨ha, hpos⟩ := hrun.start
  rw [hrest, List.append_nil] at ha
  have hforce : c.delimiters = Token.inForce d (tokens d a) := by
    rw [hrun.inForce, tokens, hread]
  rw [← hforce, hread] at ht
  have hlong := hrun.append_rest hd hrest ht
  rw [← hforce, hread]
  rw [lexemes, String.toList_append]
  refine hlong.read.trans (congrArg (ls ++ ·) ?_)
  have hmoved := Cursor.read_moved c.pos ⟨c.delimiters, 0, b.toList⟩
  rw [Cursor.moved, Nat.zero_add] at hmoved
  rw [ha, ← hpos]
  exact hmoved

end Template

open Template in
/-- Reading is compositional. Where every tag of a text is closed and no opening delimiter
starts in the literal text at its end, another text behind it is read as on its own, with
the delimiters then in force and all spans moved: the tokens and the problems of both are
those of the one and then those of the other. -/
theorem tokens_continued (d : Delimiters) (hd : d.Words) (a b : String)
    (hc : ∀ e span, Problem.unclosedTag e span ∉ Lexeme.problems (lexemes d a))
    (ht : Clear (Token.inForce d (tokens d a)).opening.toList (Lexeme.lastText (lexemes d a))
      b.toList) :
    tokens d (a ++ b) = tokens d a ++
        (tokens (Token.inForce d (tokens d a)) b).map (Token.moved (byteLength a.toList)) ∧
      Lexeme.problems (lexemes d (a ++ b)) = Lexeme.problems (lexemes d a) ++
        (Lexeme.problems (lexemes (Token.inForce d (tokens d a)) b)).map
          (Problem.moved (byteLength a.toList)) := by
  have h := lexemes_append hd hc ht
  constructor
  · rw [tokens, h, Lexeme.tokens_append, Lexeme.tokens_moved]
    rfl
  · rw [h, Lexeme.problems_append, Lexeme.problems_moved]

/-- A change of delimiters, half of one at the end of the first text, and a tag that is not
closed in the second. -/
theorem tokens_continued_changed :
    let a := "é{{=<% %>=}}<%a%><%%>\x7b\x7b<"
    let b := "<%b%>{{c}}<%d"
    let d' : Delimiters := ⟨"<%", "%>"⟩
    Token.inForce .standard (Template.tokens .standard a) = d' ∧
      Lexeme.lastText (Template.lexemes .standard a) = "\x7b\x7b<".toList ∧
      Template.tokens .standard (a ++ b) = Template.tokens .standard a ++
        (Template.tokens d' b).map (Token.moved 25) ∧
      Lexeme.problems (Template.lexemes .standard (a ++ b)) =
        Lexeme.problems (Template.lexemes .standard a) ++
          (Lexeme.problems (Template.lexemes d' b)).map (Problem.moved 25) := by
  intro a b d'
  have hforce : Token.inForce .standard (Template.tokens .standard a) = d' := by decide +kernel
  have hlast : Lexeme.lastText (Template.lexemes .standard a) = "\x7b\x7b<".toList := by
    decide +kernel
  have hlength : byteLength a.toList = 25 := by decide +kernel
  have hproblems : Lexeme.problems (Template.lexemes .standard a) = [.emptyTag ⟨18, 4⟩] := by
    decide +kernel
  have hcontinued := tokens_continued .standard ⟨by decide, by decide, by decide, by decide⟩ a b
    (by simp [hproblems]) (by rw [hforce, hlast]; decide)
  rw [hforce, hlength] at hcontinued
  exact ⟨hforce, hlast, hcontinued⟩

end Stencil
