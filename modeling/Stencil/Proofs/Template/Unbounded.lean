import Stencil.Proofs.Template.Placement

/-!
# Sources of any length

A source may have more bytes than a word can count. Its offsets are then clamped, at the
start and at the end of a span alike, and the ends of text that is joined and of section
bodies are computed from clamped ones. Beside every span stand the bytes it is meant for,
counted without a bound. They stay in the order of the source through reading, joining and
nesting, so no difference of words is taken that is below zero, and every end comes out as
the offset it is meant for or as the last word.
-/

set_option autoImplicit false

namespace Stencil

open OpenSection Text

namespace Span

/-- A span for the bytes from `start` to `stop`. The end is not clamped below the start, the
length is their difference without a wrap, and the sum that is the end saturates nowhere. -/
structure Clamps (s : Span) (start stop : Nat) : Prop where
  le : start ≤ stop
  ordered : clamp start ≤ clamp stop
  made : s = .ofBounds start stop
  length : s.length.toNat = (clamp stop).toNat - (clamp start).toNat
  sum : s.start.toNat + s.length.toNat = s.stop.toNat
  stop_toNat : s.stop.toNat = min stop (2 ^ 32 - 1)

theorem clamps {start stop : Nat} (h : start ≤ stop) : (ofBounds start stop).Clamps start stop := by
  have hle := clamp_le_clamp h
  have hlen : (ofBounds start stop).length.toNat = (clamp stop).toNat - (clamp start).toNat := by
    rw [ofBounds_of_le h, UInt32.toNat_sub_of_le _ _ hle]
  have hstop := ofBounds_stop h
  refine ⟨h, hle, rfl, hlen, ?_, by rw [hstop, clamp_toNat]⟩
  rw [hlen, hstop]
  exact Nat.add_sub_cancel' (UInt32.le_iff_toNat_le.1 hle)

namespace Clamps

variable {s u : Span} {start stop : Nat}

theorem start_eq (h : s.Clamps start stop) : s.start = clamp start := by rw [h.made]; rfl

theorem stop_eq (h : s.Clamps start stop) : s.stop = clamp stop := by rw [h.made, ofBounds_stop h.le]

/-- A span that starts where another one ends, which may be past the last word. -/
theorem behind (h : s.Clamps start stop) {m n : Nat} (hm : clamp m = clamp n) (hn : stop ≤ n) :
    (ofBounds s.stop.toNat m).Clamps stop n := by
  have hspan : ofBounds s.stop.toNat m = ofBounds stop n :=
    ofBounds_congr (by rw [h.stop_eq, clamp_clamp]) hm
  rw [hspan]
  exact clamps hn

end Clamps

end Span

structure Sited (α : Type) where
  it : α
  start : Nat
  stop : Nat

namespace Lexeme

/-- The lexemes of a text that starts at byte `pos`, and the bytes each is read from: those
of a character, of a tag with its delimiters, or, if a tag is not closed, of what was read
in search of its end. The characters of that tag are read once more as literal text. -/
inductive Laid : (d : Delimiters) → (pos : Nat) → List Char → List (Sited Lexeme) → Prop
  | done {d : Delimiters} {pos : Nat} : Laid d pos [] []
  | char {d : Delimiters} {pos : Nat} {a : Char} {s : List Char} {span : Span}
      {ls : List (Sited Lexeme)} : Laid d (pos + a.utf8Size) s ls →
      Laid d pos (a :: s)
        (⟨.token ⟨.text, String.singleton a, span⟩, pos, pos + a.utf8Size⟩ :: ls)
  | tag {d d' : Delimiters} {pos : Nat} {v s sigil body : List Char} {span : Span} {l : Lexeme}
      {ls : List (Sited Lexeme)} : ofTag d span sigil body = (l, d') →
      d.opening.toList <+: v → d.closing.toList <:+ v → Laid d' (pos + byteLength v) s ls →
      Laid d pos (v ++ s) (⟨l, pos, pos + byteLength v⟩ :: ls)
  | unclosed {d : Delimiters} {pos : Nat} {v s : List Char} {e : String} {span : Span}
      {ls : List (Sited Lexeme)} : d.opening.toList <+: v → ls.map Sited.it = ofText pos (v ++ s) →
      Laid d pos (v ++ s) ls →
      Laid d pos (v ++ s) (⟨.problem (.unclosedTag e span), pos, pos + byteLength v⟩ :: ls)

theorem tile?_span {l : Lexeme} {s : Span} (h : l.tile? = some s) : l.span = s := by
  cases l with
  | token t => exact Option.some.inj h
  | problem p =>
    cases p with
    | emptyTag | invalidDelimiters => exact Option.some.inj h
    | unclosedTag | unclosedSection | unmatchedClose => cases h

def Sites (d : Delimiters) (pos : Nat) (s : List Char) (as : List Lexeme) : Prop :=
  ∃ ls, ls.map Sited.it = as ∧ Laid d pos s ls ∧ ∀ l ∈ ls, l.it.span.Clamps l.start l.stop

theorem ofText_sites (d : Delimiters) (pos : Nat) (s : List Char) :
    Sites d pos s (ofText pos s) := by
  induction s generalizing pos with
  | nil => exact ⟨[], rfl, .done, nofun⟩
  | cons a s ih =>
    obtain ⟨ls, hls, hlaid, hspans⟩ := ih (pos + a.utf8Size)
    refine ⟨⟨Cursor.char pos a, pos, pos + a.utf8Size⟩ :: ls, ?_, .char hlaid,
      List.forall_mem_cons.2 ⟨Span.clamps (Nat.le_add_right _ _), hspans⟩⟩
    rw [List.map_cons, hls]
    rfl

end Lexeme

namespace TagRead

theorem Ends.closing_last {w sigil s b m rest : List Char} (h : Ends w sigil s b m rest) :
    ∃ x, s = x ++ w ++ rest := by
  obtain ⟨-, e, -, rfl⟩ := Pattern.blanksThen_some h.here
  cases h with
  | plain => exact ⟨b ++ e, by simp⟩
  | @braced _ f => exact ⟨b ++ f ++ '\x7d' :: e, by simp⟩
  | @delimiters _ f g => exact ⟨b ++ f ++ g ++ e, by simp⟩

theorem closed_suffix {w u r sigil b : List Char} (h : read w (u ++ r) = .closed sigil b r) :
    w <:+ u := by
  obtain ⟨c, t, m, htake, -, -, hends, -⟩ := read_closed_iff.1 h
  obtain ⟨x, rfl⟩ := hends.closing_last
  have hsrc := Pattern.take_append (Pattern.oneOf_exact TokenKind.isSigil) (u ++ r)
  rw [← sigilHere, htake] at hsrc
  have hu : sigil ++ (c ++ x) ++ w = u := by
    apply @List.append_cancel_right _ _ r
    rw [← hsrc]
    simp
  exact ⟨_, hu⟩

end TagRead

namespace Cursor

open Lexeme

variable {c c' : Cursor} {u : List Char} {l : Lexeme}

theorem Step.laid (h : Step c u l c') {ls : List (Sited Lexeme)}
    (hl : Laid c'.delimiters c'.pos c'.rest ls) :
    Laid c.delimiters c.pos c.rest (⟨l, c.pos, c'.pos⟩ :: ls) := by
  cases h with
  | char _ => exact .char hl
  | @tag d d' pos m u sigil body r l hm hne hr ht =>
    obtain ⟨-, -, b, -, rfl⟩ := Pattern.opening_here hm
    rw [← List.append_assoc]
    refine .tag ht ⟨b ++ u, by simp⟩ ?_ hl
    exact (TagRead.closed_suffix hr).trans (List.suffix_append _ _)

theorem Step.clamps (h : Step c u l c') : l.span.Clamps c.pos c'.pos := by
  obtain ⟨-, hpos, -⟩ := h.rest
  rw [tile?_span h.tile]
  exact Span.clamps (by omega)

theorem Stop.sites {tail : List Lexeme} (h : Stop c tail) (hd : c.delimiters.Present) :
    Sites c.delimiters c.pos c.rest tail := by
  cases h with
  | done => exact ⟨[], rfl, .done, nofun⟩
  | blocked he _ _ => exact absurd he hd.opening_ne
  | @unclosed d pos m s sigil r hm hne hr =>
    obtain ⟨v, z, hv, hopen, hspan⟩ := (Stop.unclosed hm hne hr).unclosed_text
    obtain ⟨ls, hls, hlaid, hspans⟩ := ofText_sites d pos (m ++ s)
    replace hv : m ++ s = v ++ z := hv
    rw [hspan]
    rw [hv] at hls hlaid ⊢
    refine ⟨⟨_, pos, pos + byteLength v⟩ :: ls, by rw [List.map_cons, hls],
      .unclosed hopen hls hlaid, List.forall_mem_cons.2 ⟨?_, hspans⟩⟩
    exact Span.clamps (Nat.le_add_right _ _)

/-- With an opening delimiter all that is read has its bytes in the source. -/
theorem read_sites {c : Cursor} (hd : c.delimiters.Present) :
    Sites c.delimiters c.pos c.rest c.read := by
  obtain ⟨u, as, c', tail, hrun, hstop⟩ := exists_run c
  rw [hrun.read, hstop.read]
  induction hrun with
  | nil c => exact hstop.sites hd
  | cons hs _ ih =>
    obtain ⟨ls, hls, hlaid, hspans⟩ := ih (hs.present hd) hstop
    refine ⟨⟨_, _, _⟩ :: ls, ?_, hs.laid hlaid, List.forall_mem_cons.2 ⟨hs.clamps, hspans⟩⟩
    rw [List.map_cons, hls]
    rfl

end Cursor

namespace Sited

def token? (l : Sited Lexeme) : Option (Sited Token) := l.it.token?.map (⟨·, l.start, l.stop⟩)

theorem map_token? (ls : List (Sited Lexeme)) :
    (ls.filterMap token?).map it = Lexeme.tokens (ls.map it) := by
  rw [Lexeme.tokens, List.map_filterMap, List.filterMap_map]
  refine congrArg (List.filterMap · ls) (funext fun l => ?_)
  cases h : l.it.token? <;> simp [token?, h]

def join (t u : Sited Token) : Sited Token := ⟨t.it.join u.it, t.start, u.stop⟩

inductive Joins : List (Sited Token) → List (Sited Token) → Prop
  | nil : Joins [] []
  | single {t : Sited Token} : Joins [t] [t]
  | join {t u : Sited Token} {us ts : List (Sited Token)} : t.it.isText → u.it.isText →
      t.it.span.start ≤ u.it.span.stop → Joins (t.join u :: us) ts → Joins (t :: u :: us) ts
  | keep {t u : Sited Token} {us ts : List (Sited Token)} : ¬ (t.it.isText ∧ u.it.isText) →
      Joins (u :: us) ts → Joins (t :: u :: us) (t :: ts)

theorem Joins.squash {xs ts : List (Sited Token)} (h : Joins xs ts) :
    ts.map Sited.it = Token.squash (xs.map Sited.it) := by
  induction h with
  | nil => rfl
  | single => rfl
  | join ht hu _ _ ih =>
    rw [ih, List.map_cons, List.map_cons, List.map_cons, Token.squash_cons, if_pos (by simp [ht, hu])]
    rfl
  | keep hn _ ih =>
    rw [List.map_cons, ih, List.map_cons, List.map_cons, List.map_cons, Token.squash_cons,
      if_neg (by simpa using hn)]

def Along : (a : Nat) → List (Sited Token) → (b : Nat) → Prop
  | a, [], b => a ≤ b
  | a, t :: ts, b => a ≤ t.start ∧ t.it.span.Clamps t.start t.stop ∧ Along t.stop ts b

namespace Along

variable {a b : Nat} {t u : Sited Token} {ts us : List (Sited Token)}

theorem weaken {a' : Nat} (h : Along a ts b) (ha : a' ≤ a) : Along a' ts b := by
  cases ts with
  | nil => exact Nat.le_trans ha h
  | cons t ts => exact ⟨Nat.le_trans ha h.1, h.2⟩

theorem behind (h : Along a (us ++ t :: ts) b) :
    a ≤ t.start ∧ t.it.span.Clamps t.start t.stop ∧ Along t.stop ts b := by
  induction us generalizing a with
  | nil => exact h
  | cons u us ih =>
    obtain ⟨h1, h2, h3⟩ := ih h.2.2
    exact ⟨Nat.le_trans h.1 (Nat.le_trans h.2.1.le h1), h2, h3⟩

theorem le (h : Along a ts b) : a ≤ b := by
  induction ts generalizing a with
  | nil => exact h
  | cons t ts ih => exact Nat.le_trans h.1 (Nat.le_trans h.2.1.le (ih h.2.2))

theorem clamps (h : Along a ts b) (ht : t ∈ ts) : t.it.span.Clamps t.start t.stop := by
  obtain ⟨xs, ys, rfl⟩ := List.append_of_mem ht
  exact h.behind.2.1

/-- Two tokens in order join without a wrap, and the joined token is in order. -/
theorem join (h : Along a (t :: u :: us) b) :
    t.it.span.start ≤ u.it.span.stop ∧ Along a (t.join u :: us) b := by
  obtain ⟨h1, ht, h2, hu, h3⟩ := h
  have hle : t.start ≤ u.stop := Nat.le_trans ht.le (Nat.le_trans h2 hu.le)
  have hspan : (t.it.join u.it).span = .ofBounds t.start u.stop :=
    Token.Cover.join_span ht.le (Nat.le_trans h2 hu.le) hu.le ht.made hu.made
  refine ⟨?_, h1, ?_, h3⟩
  · rw [ht.start_eq, hu.stop_eq]
    exact Span.clamp_le_clamp hle
  · show (t.it.join u.it).span.Clamps t.start u.stop
    rw [hspan]
    exact Span.clamps hle

theorem exists_joins {a b : Nat} {xs : List (Sited Token)} (h : Along a xs b) :
    ∃ ts, Joins xs ts ∧ Along a ts b := by
  match xs, h with
  | [], h => exact ⟨[], .nil, h⟩
  | [t], h => exact ⟨[t], .single, h⟩
  | t :: u :: us, h =>
    by_cases htu : t.it.isText ∧ u.it.isText
    · obtain ⟨hle, hjoin⟩ := h.join
      obtain ⟨ts, hts, hal⟩ := exists_joins hjoin
      exact ⟨ts, .join htu.1 htu.2 hle hts, hal⟩
    · have hrest : Along t.stop (u :: us) b := h.2.2
      obtain ⟨ts, hts, hal⟩ := exists_joins hrest
      exact ⟨t :: ts, .keep htu hts, h.1, h.2.1, hal⟩
termination_by xs.length

end Along

end Sited

theorem Lexeme.Laid.along {d : Delimiters} {pos : Nat} {s : List Char} {ls : List (Sited Lexeme)}
    (h : Laid d pos s ls) (hspans : ∀ l ∈ ls, l.it.span.Clamps l.start l.stop) :
    Sited.Along pos (ls.filterMap Sited.token?) (pos + byteLength s) := by
  induction h with
  | done => exact Nat.le_add_right _ _
  | char _ ih =>
    rw [List.forall_mem_cons] at hspans
    rw [byteLength_cons, ← Nat.add_assoc]
    exact ⟨Nat.le_refl _, hspans.1, ih hspans.2⟩
  | @tag _ _ pos v s _ _ _ l ls _ _ _ _ ih =>
    rw [List.forall_mem_cons] at hspans
    have hi := ih hspans.2
    rw [byteLength_append, ← Nat.add_assoc]
    cases l with
    | token t => exact ⟨Nat.le_refl _, hspans.1, hi⟩
    | problem p => exact hi.weaken (Nat.le_add_right _ _)
  | unclosed _ _ _ ih => exact ih (List.forall_mem_cons.1 hspans).2

namespace Nesting

/-- The bytes of a section's body: from the end of its tag to the start of the close tag that
ended it, its own or that of a section around it, or to the end of the source. -/
inductive Body (ts : List (Sited Token)) (size : Nat) : Node → (start stop : Nat) → Prop
  | closed {before inside after : List (Sited Token)} {t c : Sited Token} {inner : List Token} :
      ts = before ++ t :: (inside ++ c :: after) → t.it.kind.opensSection → c.it.kind = .close →
      Token.openAfter (before.map Sited.it ++ t.it :: inside.map Sited.it) =
        inner ++ t.it :: Token.openAfter (before.map Sited.it) →
      (∀ x ∈ inner, x.value ≠ c.it.value) →
      (∃ x ∈ t.it :: Token.openAfter (before.map Sited.it), x.value = c.it.value) →
      Body ts size (sectionOf t.it (inside.map Sited.it) c.it.span.start.toNat) t.stop c.start
  | atEnd {before inside : List (Sited Token)} {t : Sited Token} {inner : List Token} :
      ts = before ++ t :: inside → t.it.kind.opensSection →
      Token.openAfter (ts.map Sited.it) =
        inner ++ t.it :: Token.openAfter (before.map Sited.it) →
      Body ts size (sectionOf t.it (inside.map Sited.it) size) t.stop size

theorem split_sited {ts : List (Sited Token)} {xs ys : List Token} {t : Token}
    (h : ts.map Sited.it = xs ++ t :: ys) :
    ∃ us u vs, ts = us ++ u :: vs ∧ us.map Sited.it = xs ∧ u.it = t ∧ vs.map Sited.it = ys := by
  obtain ⟨us, rest, rfl, hus, hrest⟩ := List.map_eq_append_iff.1 h
  obtain ⟨u, vs, rfl, hu, hvs⟩ := List.map_eq_cons_iff.1 hrest
  exact ⟨us, u, vs, rfl, hus, hu, hvs⟩

theorem body_clamps {ts : List (Sited Token)} {size : Nat} (hs : Sited.Along 0 ts size)
    {name : String} {inverted : Bool} {span body : Span} {cs : List Node}
    (hx : (Node.sectionTag name inverted span body cs).Inside
      ((run (ts.map Sited.it)).finish size).root) :
    ∃ start stop, Body ts size (.sectionTag name inverted span body cs) start stop ∧
      body.Clamps start stop := by
  generalize hn : Node.sectionTag name inverted span body cs = x at hx
  have hsec : x.IsSection := by
    rw [← hn]
    trivial
  rcases finished_section hsec hx with hc | he
  · cases hc with
    | @mk before inside after inner t c hts ht hk ho hi hm =>
      obtain ⟨us, t, rest, hus, rfl, rfl, hrest⟩ := split_sited hts
      obtain ⟨vs, c, ws, rfl, rfl, rfl, -⟩ := split_sited hrest
      obtain ⟨-, rfl, -⟩ := sectionOf_eq ht hn.symm
      have hal := hs
      rw [hus] at hal
      obtain ⟨-, htag, hbehind⟩ := hal.behind
      obtain ⟨hle, hclose, -⟩ := hbehind.behind
      refine ⟨_, _, .closed hus ht hk ho hi hm, htag.behind ?_ hle⟩
      rw [hclose.start_eq, Span.clamp_clamp]
  · cases he with
    | @mk before inside inner t hts ht ho =>
      obtain ⟨us, t, vs, hus, rfl, rfl, rfl⟩ := split_sited hts
      obtain ⟨-, rfl, -⟩ := sectionOf_eq ht hn.symm
      have hal := hs
      rw [hus] at hal
      obtain ⟨-, htag, hbehind⟩ := hal.behind
      exact ⟨_, _, .atEnd hus ht ho, htag.behind rfl hbehind.le⟩

end Nesting

namespace Template

/-- A parse beside its bytes, counted without a bound: the lexemes of the source, its tokens
with text joined, and the nodes and problems that have their spans from them. -/
structure Counted (d : Delimiters) (source : String) (ls : List (Sited Lexeme))
    (ts : List (Sited Token)) : Prop where
  read : ls.map Sited.it = lexemes d source
  laid : Lexeme.Laid d 0 source.toList ls
  lexeme : ∀ l ∈ ls, l.it.span.Clamps l.start l.stop
  joined : ts.map Sited.it = Token.squash (tokens d source)
  joins : Sited.Joins (ls.filterMap Sited.token?) ts
  token : ∀ t ∈ ts, t.it.span.Clamps t.start t.stop
  node : ∀ n : Node, n.Inside (parse d source).nodes → ∃ t ∈ ts, n.tagToken = t.it
  body : ∀ name inverted span body cs,
    (Node.sectionTag name inverted span body cs).Inside (parse d source).nodes →
    ∃ start stop, body.Clamps start stop ∧
      Nesting.Body ts (byteLength source.toList) (.sectionTag name inverted span body cs) start stop
  problem : ∀ p ∈ (parse d source).problems,
    (∃ l ∈ ls, l.it = .problem p) ∨ ∃ t ∈ ts, p = t.it.unclosed ∨ p = t.it.unmatched

end Template

open Template in
/-- In no source, however long, does the arithmetic of spans wrap. Reading, joining and nesting
clamp no end below its start, join no text that ends before it starts, and every end, summed
up from the words of a span, is the offset it is meant for or the last word. -/
theorem spans_never_wrap (d : Delimiters) (source : String) (hd : d.Present) :
    ∃ ls ts, Counted d source ls ts := by
  obtain ⟨ls, hread, hlaid, hspans⟩ := Cursor.read_sites (c := ⟨d, 0, source.toList⟩) hd
  have halong := hlaid.along hspans
  rw [Nat.zero_add] at halong
  obtain ⟨ts, hjoins, hts⟩ := halong.exists_joins
  have hjoined : ts.map Sited.it = Token.squash (tokens d source) := by
    rw [hjoins.squash, Sited.map_token?, hread]
    rfl
  have hsited : ∀ t ∈ Token.squash (tokens d source), ∃ u ∈ ts, t = u.it := by
    intro t ht
    rw [← hjoined] at ht
    obtain ⟨u, hu, rfl⟩ := List.mem_map.1 ht
    exact ⟨u, hu, rfl⟩
  refine ⟨ls, ts, ⟨hread, hlaid, hspans, hjoined, hjoins, fun t ht => hts.clamps ht,
    fun n hn => hsited _ (tagToken_mem hn), fun name inverted span body cs hx => ?_, fun p hp => ?_⟩⟩
  · have hx' : (Node.sectionTag name inverted span body cs).Inside
        ((Nesting.run (ts.map Sited.it)).finish (byteLength source.toList)).root := by
      rw [hjoined]
      exact hx
    obtain ⟨start, stop, hbody, hclamps⟩ := Nesting.body_clamps hts hx'
    exact ⟨start, stop, hclamps, hbody⟩
  · rcases List.mem_append.1 hp with hp | hp
    · have hmem : Lexeme.problem p ∈ ls.map Sited.it := by
        rw [hread]
        exact Lexeme.mem_problems hp
      exact .inl (List.mem_map.1 hmem)
    · obtain ⟨t, ht, hp⟩ := Nesting.finish_reports hp
      obtain ⟨u, hu, rfl⟩ := hsited t ht
      exact .inr ⟨u, hu, hp⟩

/-- Behind more characters than a word counts stand crossing sections, text around a tag
without a name and a tag that is not closed. -/
theorem spans_never_wrap_beyond :
    let source := String.ofList (List.replicate (2 ^ 32) 'x' ++
      "\x7b\x7b#a\x7d\x7dy\x7b\x7b\x7d\x7dz\x7b\x7b#b\x7d\x7d\x7b\x7b/a\x7d\x7d\x7b\x7bc".toList)
    2 ^ 32 < byteLength source.toList ∧ Delimiters.standard.Present ∧
      ∃ ls ts, Template.Counted .standard source ls ts := by
  intro source
  refine ⟨?_, ⟨by decide, by decide⟩, spans_never_wrap .standard source ⟨by decide, by decide⟩⟩
  rw [String.toList_ofList, byteLength_append, byteLength_replicate]
  have hx : 'x'.utf8Size = 1 := by decide
  have htail : 0 < byteLength
      "\x7b\x7b#a\x7d\x7dy\x7b\x7b\x7d\x7dz\x7b\x7b#b\x7d\x7d\x7b\x7b/a\x7d\x7d\x7b\x7bc".toList := by decide
  rw [hx]
  omega

end Stencil
