import Stencil.Proofs.Template.Trimmed

/-!
# Set-delimiter tags

A set-delimiter tag is meant to end where an equal sign has the closing delimiter behind
it. It is read up to its first equal sign, whatever stands behind that one, and then up to
the next closing delimiter. The two come to the same exactly where the first equal sign
ends the tag or nothing closes it, so a pair of delimiters can be put in force exactly if
there is no equal sign in it.
-/

set_option autoImplicit false

namespace Stencil

open Text

theorem Delimiters.Words.trim_text {p : Delimiters} (hp : p.Words) :
    trim p.text.toList = p.text.toList := by
  have ht : p.text.toList = p.opening.toList ++ ' ' :: p.closing.toList := by simp [text]
  have hrev : p.text.toList.reverse =
      p.closing.toList.reverse ++ (' ' :: p.opening.toList.reverse) := by
    rw [ht]; simp
  apply trim_of_flush
  · rw [ht]
    exact hp.opening_solid.flush _ hp.opening_ne
  · have hsolid : Solid p.closing.toList.reverse :=
      fun c hc => hp.closing_solid c (List.mem_reverse.1 hc)
    rw [hrev]
    exact hsolid.flush _ (by simpa using hp.closing_ne)

theorem first_equal {b t b' t' : List Char} (hb : '=' ∉ b)
    (h : b ++ '=' :: t = b' ++ '=' :: t') :
    (b' = b ∧ t' = t) ∨ ∃ y, b' = b ++ '=' :: y ∧ t = y ++ '=' :: t' := by
  rcases List.append_eq_append_iff.1 h with ⟨z, rfl, hz⟩ | ⟨z, rfl, hz⟩
  · cases z with
    | nil =>
      cases hz
      exact .inl ⟨List.append_nil b, rfl⟩
    | cons c y =>
      cases hz
      exact .inr ⟨y, rfl, rfl⟩
  · cases z with
    | nil =>
      cases hz
      exact .inl ⟨(List.append_nil b').symm, rfl⟩
    | cons c y =>
      cases hz
      exact absurd (by simp) hb

namespace TagRead

variable {w : List Char}

def Closes (w t : List Char) : Prop := ∃ e, Blank e ∧ e ++ w <+: t

def Passes (w g t : List Char) : Prop := ∀ x y, g = x ++ y → y ≠ [] → ¬ Closes w (y ++ t)

/-- The reading that is meant of a set-delimiter tag with `u` behind its sigil: its text
ends at the first equal sign that has the closing delimiter behind it. -/
def AsMeant (w u : List Char) : TagRead → Prop
  | closed _ body rest => ∃ b e, Blank e ∧ u = b ++ '=' :: (e ++ (w ++ rest)) ∧
      trim body = trim b ∧
      ∀ b' t', u = b' ++ '=' :: t' → Closes w t' → b.length ≤ b'.length
  | unclosed _ _ => ∀ b t, u = b ++ '=' :: t → ¬ Closes w t

theorem closes_iff {t : List Char} : Closes w t ↔ ((Pattern.closing w).here t).isSome := by
  constructor
  · rintro ⟨e, he, r, rfl⟩
    exact Pattern.blanksThen_isSome.2 ⟨e, w ++ r, he, by simp, by simp⟩
  · intro h
    obtain ⟨e, t, he, rfl, r, rfl⟩ := Pattern.blanksThen_isSome.1 h
    exact ⟨e, he, r, by simp⟩

theorem Passes.eq_nil {g t : List Char} (h : Passes w g t) (hc : Closes w (g ++ t)) : g = [] := by
  by_contra hne
  exact h [] g rfl hne hc

theorem Closes.occurs {t : List Char} (h : Closes w t) : w <:+: t := by
  obtain ⟨e, -, r, rfl⟩ := h
  exact ⟨e, r, rfl⟩

theorem solid_equal : Solid ['='] := by decide

/-- What is read of a set-delimiter tag ends at its first equal sign. -/
theorem body_equal {b : List Char} (hb : '=' ∉ b) (t : List Char) :
    body w ['='] (dropBlanks (b ++ '=' :: t)) = (trim b, ((Pattern.closing w).upTo t).2) := by
  obtain ⟨a, e, ha, he, hs, h0⟩ := trim_split b
  have hflush : Flush (trim b ++ (e ++ '=' :: t)) := by
    by_cases hne : trim b = []
    · rw [hne, h0 hne]
      rintro c r ⟨⟩
      decide
    · exact (flush_of_trim (trim_trim b)).1.append hne _
  have hdrop : dropBlanks (b ++ '=' :: t) = trim b ++ (e ++ '=' :: t) := by
    have happ : b ++ '=' :: t = a ++ (trim b ++ (e ++ '=' :: t)) := by
      rw [congrArg (· ++ '=' :: t) hs]
      simp
    rw [happ, dropBlanks_append ha, dropBlanks_of_flush hflush]
  have hclear : Clear ['='] (trim b) ['='] := by
    rintro x y hxy hy ⟨r, hr⟩
    obtain ⟨c, y, rfl⟩ := List.exists_cons_of_ne_nil hy
    cases hr
    exact hb (mem_of_mem_trim (by rw [hxy]; simp))
  have hhere : Pattern.equalSign.here (e ++ '=' :: t) = some (e ++ ['='], t) :=
    Pattern.blanksThen_solid (w := ['=']) solid_equal (by simp) he t
  have hup : Pattern.equalSign.upTo (trim b ++ (e ++ '=' :: t)) = (trim b, e ++ '=' :: t) :=
    Pattern.upTo_eq rfl (Pattern.closing_misses solid_equal hclear (trim_trim b) he t)
      (.inr (by rw [hhere]; rfl))
  simp only [body, hdrop, hup, Pattern.take_of_here hhere]

theorem closing_found (hw : w ≠ []) {t : List Char} (h : w <:+: t) :
    ∃ g e rest, Blank e ∧ t = g ++ (e ++ (w ++ rest)) ∧ Passes w g (e ++ (w ++ rest)) ∧
      (Pattern.closing w).take ((Pattern.closing w).upTo t).2 = (e ++ w, rest) := by
  rcases hu : (Pattern.closing w).upTo t with ⟨g, r⟩
  obtain ⟨rfl, hg, hr⟩ := Pattern.upTo_spec rfl hu
  have hsome : ((Pattern.closing w).here r).isSome := by
    rcases hr with rfl | hr
    · -- a delimiter that was found nowhere
      obtain ⟨x, y, hxy⟩ := h
      have hn := hg x (w ++ y) (by rw [← List.append_assoc, hxy, List.append_nil])
        (by simp [hw])
      have hs : ((Pattern.closing w).here (w ++ y ++ [])).isSome :=
        closes_iff.1 ⟨[], by simp [Blank], y ++ [], by simp⟩
      rw [hn] at hs
      cases hs
    · exact hr
  obtain ⟨⟨m, rest⟩, hm⟩ := Option.isSome_iff_exists.1 hsome
  obtain ⟨rfl, e, he, rfl⟩ := Pattern.blanksThen_some hm
  rw [List.append_assoc] at hg
  refine ⟨g, e, rest, he, by simp, ?_, Pattern.take_of_here hm⟩
  intro x y hxy hy hc
  have hs := closes_iff.1 hc
  rw [hg x y hxy hy] at hs
  cases hs

theorem closing_lost {t : List Char} (h : ¬ w <:+: t) : (Pattern.closing w).upTo t = (t, []) := by
  have hmiss : (Pattern.closing w).Misses t [] := by
    rintro x y rfl -
    by_contra hn
    have hc := closes_iff.2 (Option.isSome_iff_ne_none.2 hn)
    rw [List.append_nil] at hc
    exact h (hc.occurs.trans (List.suffix_append x y).isInfix)
  have hu := Pattern.upTo_eq (p := Pattern.closing w) rfl hmiss (.inl rfl)
  rwa [List.append_nil] at hu

theorem take_nil (hw : w ≠ []) : (Pattern.closing w).take [] = ([], []) := by
  cases w with
  | nil => exact absurd rfl hw
  | cons c w => rfl

theorem take_sigil (u : List Char) : sigilHere.take ('=' :: u) = (['='], u) := rfl

/-- A tag whose first equal sign has a closing delimiter somewhere behind it. -/
theorem read_delimiters_closed (hw : w ≠ []) {b t : List Char} (hb : '=' ∉ b) (h : w <:+: t) :
    ∃ g e rest, Blank e ∧ t = g ++ (e ++ (w ++ rest)) ∧ Passes w g (e ++ (w ++ rest)) ∧
      read w ('=' :: (b ++ '=' :: t)) = closed ['='] (trim b) rest := by
  obtain ⟨g, e, rest, he, ht, hg, htake⟩ := closing_found hw h
  refine ⟨g, e, rest, he, ht, hg, ?_⟩
  have hne : e ++ w ≠ [] := by simp [hw]
  obtain ⟨c, m, hm⟩ := List.exists_cons_of_ne_nil hne
  rw [hm] at htake
  simp only [read, take_sigil, body_equal hb, htake]

theorem read_delimiters_unclosed (hw : w ≠ []) {b t : List Char} (hb : '=' ∉ b)
    (h : ¬ w <:+: t) :
    read w ('=' :: (b ++ '=' :: t)) = unclosed ['='] [] := by
  simp only [read, take_sigil, body_equal hb, closing_lost h, take_nil hw]

theorem read_delimiters_bare (hw : w ≠ []) {u : List Char} (h : '=' ∉ u) :
    read w ('=' :: u) = unclosed ['='] [] := by
  have hlost : Pattern.equalSign.upTo (dropBlanks u) = (dropBlanks u, []) := by
    refine closing_lost (w := ['=']) fun hin => h ?_
    exact (List.dropWhile_sublist _).subset (hin.subset (List.mem_singleton_self _))
  have htake : Pattern.equalSign.take [] = ([], []) := rfl
  have hup : (Pattern.closing w).upTo [] = ([], []) := rfl
  simp only [read, take_sigil, body, hlost, htake, hup, take_nil hw]

/-- A tag is read as meant if its first equal sign ends it, or if nothing behind that
sign could. -/
theorem asMeant_iff (hw : w ≠ []) (u : List Char) :
    AsMeant w u (read w ('=' :: u)) ↔
      ∀ b t, u = b ++ '=' :: t → '=' ∉ b → Closes w t ∨ ¬ w <:+: t := by
  constructor
  · rintro h b t rfl hb
    by_contra hn
    rw [not_or, not_not] at hn
    obtain ⟨g, e, rest, -, -, -, hread⟩ := read_delimiters_closed hw hb hn.2
    rw [hread] at h
    obtain ⟨b', e', he', hu, htrim, -⟩ := h
    rcases first_equal hb hu with ⟨-, ht⟩ | ⟨y, rfl, -⟩
    · exact hn.1 ⟨e', he', rest, by rw [← ht]; simp⟩
    · -- the text that is meant would have an equal sign in it, which what is read has not
      have hmem : '=' ∈ trim (b ++ '=' :: y) := mem_trim_of_mem (by decide) (by simp)
      rw [← htrim, trim_trim] at hmem
      exact hb (mem_of_mem_trim hmem)
  · intro h
    by_cases hu : '=' ∈ u
    · obtain ⟨b, t, rfl, hb⟩ := List.eq_append_cons_of_mem hu
      rcases h b t rfl hb with hc | hn
      · obtain ⟨g, e, rest, he, ht, hg, hread⟩ := read_delimiters_closed hw hb hc.occurs
        rw [ht] at hc
        obtain rfl := hg.eq_nil hc
        rw [hread]
        refine ⟨b, e, he, by rw [ht, List.nil_append], trim_trim b, ?_⟩
        intro b' t' hbt _
        rcases first_equal hb hbt with ⟨rfl, -⟩ | ⟨y, rfl, -⟩
        · exact Nat.le_refl _
        · simp
      · rw [read_delimiters_unclosed hw hb hn]
        intro b' t' hbt hc
        rcases first_equal hb hbt with ⟨-, rfl⟩ | ⟨y, -, rfl⟩
        · exact hn hc.occurs
        · exact hn (hc.occurs.trans ⟨y ++ ['='], [], by simp⟩)
    · rw [read_delimiters_bare hw hu]
      rintro b t rfl
      exact absurd (by simp) hu

end TagRead

namespace Delimiters

def tag (d p : Delimiters) : List Char :=
  d.opening.toList ++ '=' :: (p.text.toList ++ '=' :: d.closing.toList)

/-- With `d` in force a text is read as a set-delimiter tag of the pair `p` first, and
from then on with `p` in force. -/
def PutsInForce (d : Delimiters) (pos : Nat) (s : List Char) (p : Delimiters) : Prop :=
  ∃ u rest span pos', s = u ++ rest ∧
    Lexeme.read d pos s = .token ⟨.setDelimiters, p.text, span⟩ :: Lexeme.read p pos' rest

theorem text_injective {d p : Delimiters} (hd : d.Words) (hp : p.Words) (h : d.text = p.text) :
    d = p := by
  have he := hd.parse?_text
  rw [h, hp.parse?_text] at he
  exact (Option.some.inj he).symm

theorem parse?_mem {s : List Char} {p : Delimiters} (h : parse? s = some p) {c : Char}
    (hc : c ∈ p.opening.toList ∨ c ∈ p.closing.toList) : c ∈ s := by
  unfold parse? at h
  split at h
  · next o w hw =>
    cases h
    have hcut : ∀ x, x ∈ words s → x ∈ cutAt isBlank s := fun x hx => (List.mem_filter.1 hx).1
    simp only [String.toList_ofList] at hc
    rcases hc with hc | hc
    · exact mem_of_mem_cutAt (hcut o (by rw [hw]; simp)) hc
    · exact mem_of_mem_cutAt (hcut w (by rw [hw]; simp)) hc
  · cases h

theorem mem_text {p : Delimiters} : '=' ∈ p.text.toList ↔
    '=' ∈ p.opening.toList ∨ '=' ∈ p.closing.toList := by
  simp [text]

theorem opening_tag {d : Delimiters} (u : List Char) :
    (Pattern.opening d.opening.toList).here (d.opening.toList ++ '=' :: u) =
      some (d.opening.toList, '=' :: u) := by
  have h := Pattern.opening_eq (w := d.opening.toList) (b := []) (r := '=' :: u) (by simp [Blank])
    (by rintro c r ⟨⟩; decide)
  simpa using h

theorem read_tag {d : Delimiters} (hd : d.Present) {u body r : List Char}
    (h : TagRead.read d.closing.toList ('=' :: u) = .closed ['='] body r) (pos : Nat) :
    ∃ span pos', Lexeme.read d pos (d.opening.toList ++ '=' :: u) =
      (Lexeme.ofTag d span ['='] body).1 ::
        Lexeme.read (Lexeme.ofTag d span ['='] body).2 pos' r := by
  obtain ⟨c, m, hm⟩ := List.exists_cons_of_ne_nil
    (show d.opening.toList ≠ [] by simpa using hd.opening_ne)
  have hopen := opening_tag (d := d) u
  rw [Cursor.read_here (by rw [hopen]; rfl), Cursor.fromTag, Pattern.take_of_here hopen]
  simp only [hm, h]
  exact ⟨_, _, rfl⟩

theorem puts_in_force {d p : Delimiters} (hd : d.Present) (hp : p.Words)
    (hno : '=' ∉ p.text.toList) (pos : Nat) (rest : List Char) :
    d.PutsInForce pos (d.tag p ++ rest) p := by
  have hw : d.closing.toList ≠ [] := by simpa using hd.closing_ne
  have hcloses : TagRead.Closes d.closing.toList (d.closing.toList ++ rest) :=
    ⟨[], by simp [Blank], by simp⟩
  obtain ⟨g, e, r, -, ht, hg, hread⟩ := TagRead.read_delimiters_closed hw hno hcloses.occurs
  obtain rfl : g = [] := hg.eq_nil (ht ▸ hcloses)
  obtain ⟨span, pos', hl⟩ := read_tag hd hread pos
  have htag : Lexeme.ofTag d span ['='] (trim p.text.toList) =
      (.token ⟨.setDelimiters, p.text, span⟩, p) := by
    simp only [Lexeme.ofTag, TokenKind.ofSigil, hp.trim_text, hp.parse?_text]
  have hs : d.tag p ++ rest =
      d.opening.toList ++ '=' :: (p.text.toList ++ '=' :: (d.closing.toList ++ rest)) := by
    simp [tag]
  rw [htag, ← hs] at hl
  refine ⟨d.opening.toList ++ '=' :: (p.text.toList ++ '=' :: (e ++ d.closing.toList)), r, span,
    pos', ?_, hl⟩
  rw [hs, ht]
  simp

theorem not_puts_in_force {d p : Delimiters} (hd : d.Present) (hp : p.Words)
    (heq : '=' ∈ p.text.toList) (pos : Nat) (rest : List Char) :
    ¬ d.PutsInForce pos (d.tag p ++ rest) p := by
  rintro ⟨-, rest', span, pos', -, hread⟩
  have hw : d.closing.toList ≠ [] := by simpa using hd.closing_ne
  obtain ⟨b, t, hbt, hb⟩ := List.eq_append_cons_of_mem heq
  have hs : d.tag p ++ rest = d.opening.toList ++
      '=' :: (b ++ '=' :: (t ++ '=' :: (d.closing.toList ++ rest))) := by
    rw [tag, hbt]
    simp
  obtain ⟨g, e, r, -, -, -, hclosed⟩ := TagRead.read_delimiters_closed hw hb
    (t := t ++ '=' :: (d.closing.toList ++ rest)) ⟨t ++ ['='], rest, by simp⟩
  obtain ⟨span', pos'', hl⟩ := read_tag hd hclosed pos
  rw [hs, hl] at hread
  obtain ⟨htoken, -⟩ := List.cons.inj hread
  rcases Lexeme.ofTag_cases d span' ['='] (trim b) with
    ⟨q, -, hq, he⟩ | ⟨-, -, he⟩ | ⟨hk, -⟩ | ⟨hk, -⟩
  · rw [he] at htoken
    have htext := congrArg Token.value (Lexeme.token.inj htoken)
    obtain rfl := text_injective (parse?_words hq) hp htext
    have hmem := parse?_mem hq (mem_text.1 heq)
    rw [trim_trim] at hmem
    exact hb (mem_of_mem_trim hmem)
  · rw [he] at htoken
    cases htoken
  · exact hk rfl
  · exact hk rfl

structure TagsRead (d : Delimiters) : Prop where
  /-- The text of a tag ends at its first equal sign and the tag at the next closing
  delimiter; what stands between them is lost. -/
  ended : ∀ b t, '=' ∉ b → d.closing.toList <:+: t → ∃ g e rest, Blank e ∧
    t = g ++ (e ++ (d.closing.toList ++ rest)) ∧
    TagRead.Passes d.closing.toList g (e ++ (d.closing.toList ++ rest)) ∧
    TagRead.read d.closing.toList ('=' :: (b ++ '=' :: t)) = .closed ['='] (trim b) rest
  /-- Without a closing delimiter behind that sign the tag is not closed, -/
  lost : ∀ b t, '=' ∉ b → ¬ d.closing.toList <:+: t →
    TagRead.read d.closing.toList ('=' :: (b ++ '=' :: t)) = .unclosed ['='] []
  /-- nor is it without such a sign. -/
  bare : ∀ u, '=' ∉ u → TagRead.read d.closing.toList ('=' :: u) = .unclosed ['='] []
  /-- So it is read as meant where the first equal sign has the closing delimiter behind
  it, or has none anywhere. -/
  meant : ∀ u, TagRead.AsMeant d.closing.toList u (TagRead.read d.closing.toList ('=' :: u)) ↔
    ∀ b t, u = b ++ '=' :: t → '=' ∉ b →
      TagRead.Closes d.closing.toList t ∨ ¬ d.closing.toList <:+: t
  /-- The pairs that can be put in force are those without equal signs. -/
  pairs : ∀ p : Delimiters, p.Words → ∀ pos rest,
    d.PutsInForce pos (d.tag p ++ rest) p ↔ '=' ∉ p.opening.toList ∧ '=' ∉ p.closing.toList

/-- Set-delimiter tags are read up to their first equal sign. -/
theorem tags_read {d : Delimiters} (hd : d.Present) : d.TagsRead where
  ended b t hb h := TagRead.read_delimiters_closed (by simpa using hd.closing_ne) hb h
  lost b t hb h := TagRead.read_delimiters_unclosed (by simpa using hd.closing_ne) hb h
  bare u h := TagRead.read_delimiters_bare (by simpa using hd.closing_ne) h
  meant := TagRead.asMeant_iff (by simpa using hd.closing_ne)
  pairs p hp pos rest := by
    rw [← not_or, ← mem_text]
    constructor
    · exact fun h heq => not_puts_in_force hd hp heq pos rest h
    · exact fun hno => puts_in_force hd hp hno pos rest

theorem tags_read_standard : standard.Present ∧ standard.TagsRead :=
  ⟨⟨by decide, by decide⟩, tags_read ⟨by decide, by decide⟩⟩

/-- Arrows for delimiters: the tag that should put them in force ends at the equal sign
of the first one, and is reported for the little that is left of its text. -/
theorem arrows_not_in_force :
    (⟨"<=", "=>"⟩ : Delimiters).Words ∧
    ¬ TagRead.AsMeant "\x7d\x7d".toList "<= =>=\x7d\x7d<= x =>".toList
      (TagRead.read "\x7d\x7d".toList "=<= =>=\x7d\x7d<= x =>".toList) ∧
    ¬ standard.PutsInForce 0 "\x7b\x7b=<= =>=\x7d\x7d<= x =>".toList ⟨"<=", "=>"⟩ ∧
    Lexeme.problems (Template.lexemes standard "\x7b\x7b=<= =>=\x7d\x7d<= x =>") =
      [.invalidDelimiters "<" ⟨0, 11⟩] := by
  have hp : (⟨"<=", "=>"⟩ : Delimiters).Words := ⟨by decide, by decide, by decide, by decide⟩
  refine ⟨hp, ?_, ?_, by decide +kernel⟩
  · intro h
    rcases (TagRead.asMeant_iff (by decide) _).1 h ['<'] " =>=\x7d\x7d<= x =>".toList (by decide)
      (by decide) with hc | hn
    · have hsome := TagRead.closes_iff.1 hc
      revert hsome
      decide
    · exact hn ⟨" =>=".toList, "<= x =>".toList, by decide⟩
  · exact not_puts_in_force ⟨by decide, by decide⟩ hp (by decide) 0 "<= x =>".toList

end Delimiters

end Stencil
