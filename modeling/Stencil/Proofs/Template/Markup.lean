import Stencil.Proofs.Template.Discipline

/-!
# Well-formed templates

A template written out from a tree, with blanks wherever a tag may have them.
Where no delimiter can be mistaken for text and no text for a delimiter, parsing
gives the tree back, byte by byte.
-/

set_option autoImplicit false

namespace Stencil

open Text

structure Spacing where
  opening : List Char
  sigil : List Char
  closing : List Char
  opening_blank : Blank opening
  sigil_blank : Blank sigil
  closing_blank : Blank closing

inductive Form
  | escaped
  | ampersand
  | braces
  | partialTag
  | comment
deriving DecidableEq

namespace Form

def sigil : Form → List Char
  | escaped => []
  | ampersand => ['&']
  | braces => ['\x7b']
  | partialTag => ['>']
  | comment => ['!']

def node (value : String) (span : Span) : Form → Node
  | escaped => .variableTag value true span
  | ampersand | braces => .variableTag value false span
  | partialTag => .partialTag value span
  | comment => .comment value span

theorem sigil_spec (form : Form) :
    (form.sigil = [] ∨ ∃ x, form.sigil = [x] ∧ TokenKind.isSigil x) ∧ form.sigil ≠ ['='] := by
  cases form <;> simp [sigil] <;> decide

end Form

inductive Markup
  | text (s : String)
  | tag (form : Form) (sp : Spacing) (value : String)
  | sectionTag (inverted : Bool) (name : String) (sp : Spacing) (children : List Markup)
      (close : Spacing)

namespace Markup

def tail (d : Delimiters) : (sigil : List Char) → List Char
  | ['\x7b'] => '\x7d' :: d.closing.toList
  | _ => d.closing.toList

def printTag (d : Delimiters) (sp : Spacing) (sigil value : List Char) : List Char :=
  d.opening.toList ++ (sp.opening ++ (sigil ++ (sp.sigil ++ (value ++ (sp.closing ++ tail d sigil)))))

def sectionSigil (inverted : Bool) : List Char := if inverted then ['^'] else ['#']

mutual

def print (d : Delimiters) : Markup → List Char
  | text s => s.toList
  | tag form sp value => printTag d sp form.sigil value.toList
  | sectionTag inverted name sp children close =>
    printTag d sp (sectionSigil inverted) name.toList ++
      (printAll d children ++ printTag d close ['/'] name.toList)

def printAll (d : Delimiters) : List Markup → List Char
  | [] => []
  | m :: ms => print d m ++ printAll d ms

end

def isText : Markup → Bool
  | text _ => true
  | _ => false

/-- A text that a tag of the sigil can hold: it is trimmed, and the end of the tag
comes first right behind it. -/
structure Holds (d : Delimiters) (sigil value : List Char) : Prop where
  trimmed : trim value = value
  clear : Clear (tail d sigil) value (tail d sigil)

instance (d : Delimiters) (sigil value : List Char) : Decidable (Holds d sigil value) :=
  decidable_of_iff (trim value = value ∧ Clear (tail d sigil) value (tail d sigil))
    ⟨fun ⟨h, k⟩ => ⟨h, k⟩, fun ⟨h, k⟩ => ⟨h, k⟩⟩

mutual

def WellFormed (d : Delimiters) : Markup → (rest : List Char) → Prop
  | text s, rest => s ≠ "" ∧ Clear d.opening.toList s.toList rest
  | tag form _ value, _ => Holds d form.sigil value.toList ∧
      (form ≠ .comment → value ≠ "") ∧
      (form = .escaped → value.toList.head?.any TokenKind.isSigil = false)
  | sectionTag _ name _ children close, rest => Holds d ['/'] name.toList ∧ name ≠ "" ∧
      AllWellFormed d children (printTag d close ['/'] name.toList ++ rest)

def AllWellFormed (d : Delimiters) : List Markup → (rest : List Char) → Prop
  | [], _ => True
  | m :: ms, rest => WellFormed d m (printAll d ms ++ rest) ∧
      (m.isText → ∀ m' ∈ ms.head?, ¬ m'.isText) ∧ AllWellFormed d ms rest

end

mutual

def decideWellFormed (d : Delimiters) :
    (m : Markup) → (rest : List Char) → Decidable (WellFormed d m rest)
  | text _, _ => inferInstanceAs (Decidable (_ ∧ _))
  | tag _ _ _, _ => inferInstanceAs (Decidable (_ ∧ _ ∧ _))
  | sectionTag _ name _ children close, rest =>
    have := decideAllWellFormed d children (printTag d close ['/'] name.toList ++ rest)
    inferInstanceAs (Decidable (_ ∧ _ ∧ _))

def decideAllWellFormed (d : Delimiters) :
    (ms : List Markup) → (rest : List Char) → Decidable (AllWellFormed d ms rest)
  | [], _ => isTrue trivial
  | m :: ms, rest =>
    have := decideWellFormed d m (printAll d ms ++ rest)
    have := decideAllWellFormed d ms rest
    inferInstanceAs (Decidable (_ ∧ _ ∧ _))

end

instance (d : Delimiters) (ms : List Markup) (rest : List Char) :
    Decidable (AllWellFormed d ms rest) := decideAllWellFormed d ms rest

mutual

def node (d : Delimiters) (pos : Nat) : Markup → Node
  | text s => .text s (.ofBounds pos (pos + byteLength s.toList))
  | tag form sp value =>
    form.node value (.ofBounds pos (pos + byteLength (printTag d sp form.sigil value.toList)))
  | sectionTag inverted name sp children _ =>
    let inside := pos + byteLength (printTag d sp (sectionSigil inverted) name.toList)
    .sectionTag name inverted (.ofBounds pos inside)
      (.ofBounds inside (inside + byteLength (printAll d children))) (nodes d inside children)

def nodes (d : Delimiters) (pos : Nat) : List Markup → List Node
  | [] => []
  | m :: ms => node d pos m :: nodes d (pos + byteLength (print d m)) ms

end

mutual

def tokens (ofText : Nat → List Char → List Token) (d : Delimiters) (pos : Nat) :
    Markup → List Token
  | text s => ofText pos s.toList
  | tag form sp value =>
    [⟨.ofSigil form.sigil, value,
      .ofBounds pos (pos + byteLength (printTag d sp form.sigil value.toList))⟩]
  | sectionTag inverted name sp children close =>
    let inside := pos + byteLength (printTag d sp (sectionSigil inverted) name.toList)
    let behind := inside + byteLength (printAll d children)
    ⟨.ofSigil (sectionSigil inverted), name, .ofBounds pos inside⟩ ::
      (tokensAll ofText d inside children ++
        [⟨.close, name, .ofBounds behind
          (behind + byteLength (printTag d close ['/'] name.toList))⟩])

def tokensAll (ofText : Nat → List Char → List Token) (d : Delimiters) (pos : Nat) :
    List Markup → List Token
  | [] => []
  | m :: ms => tokens ofText d pos m ++ tokensAll ofText d (pos + byteLength (print d m)) ms

end

/-! ## Reading a tag -/

variable {d : Delimiters}

theorem tail_plain {sigil : List Char} (h : sigil ≠ ['\x7b']) : tail d sigil = d.closing.toList := by
  unfold tail
  split
  · exact absurd rfl h
  · rfl

theorem tail_solid (hd : d.Words) (sigil : List Char) : Solid (tail d sigil) ∧ tail d sigil ≠ [] := by
  by_cases h : sigil = ['\x7b']
  · subst h
    refine ⟨fun c hc => ?_, by simp [tail]⟩
    rcases List.mem_cons.1 hc with rfl | hc
    · decide
    · exact hd.closing_solid c hc
  · rw [tail_plain h]
    exact ⟨hd.closing_solid, hd.closing_ne⟩

theorem ends_printed (hd : d.Words) {sigil value e : List Char} (hs : sigil ≠ ['='])
    (h : Holds d sigil value) (he : Blank e) (rest : List Char) :
    ∃ m, TagRead.Ends d.closing.toList sigil (value ++ (e ++ (tail d sigil ++ rest))) value m rest ∧
      m ≠ [] := by
  have hsolid := tail_solid hd sigil
  have hmiss := Pattern.closing_misses hsolid.1 h.clear h.trimmed he rest
  by_cases hb : sigil = ['\x7b']
  · subst hb
    have hm := Pattern.blanksThen_solid hd.closing_solid hd.closing_ne (e := []) (by simp [Blank]) rest
    exact ⟨d.closing.toList, .braced he hmiss (List.prefix_append _ _) hm, hd.closing_ne⟩
  · rw [tail_plain hb] at hmiss ⊢
    have hm := Pattern.blanksThen_solid hd.closing_solid hd.closing_ne he rest
    refine ⟨e ++ d.closing.toList, ?_, by simp [hd.closing_ne]⟩
    have hend : TagRead.Ends d.closing.toList sigil (value ++ (e ++ d.closing.toList ++ rest)) value
        (e ++ d.closing.toList) rest :=
      .plain hs hb (by simpa using hmiss) (by simpa [Pattern.closing] using hm)
    simpa using hend

theorem sigil_not_blank {c : Char} (h : TokenKind.isSigil c) : isBlank c = false := by
  have hm : c ∈ "#^/>\x7b&=!".toList := by simpa [TokenKind.isSigil] using h
  have hall : "#^/>\x7b&=!".toList.all (!isBlank ·) = true := by decide +kernel
  simpa using List.all_eq_true.1 hall c hm

theorem shift_blanks (hd : d.Words) {sigil value : List Char} (h : Holds d sigil value)
    (sp : Spacing) (rest : List Char) :
    ∃ c e, Blank c ∧ Blank e ∧
      sp.sigil ++ (value ++ (sp.closing ++ tail d sigil)) = c ++ (value ++ (e ++ tail d sigil)) ∧
      Flush (value ++ (e ++ (tail d sigil ++ rest))) := by
  cases value with
  | nil =>
    have ht := tail_solid hd sigil
    exact ⟨sp.sigil ++ sp.closing, [], sp.sigil_blank.append sp.closing_blank, by simp [Blank],
      by simp, ht.1.flush rest ht.2⟩
  | cons a value =>
    refine ⟨sp.sigil, sp.closing, sp.sigil_blank, sp.closing_blank, rfl, ?_⟩
    intro c r hcr
    obtain ⟨rfl, -⟩ := List.cons.inj hcr
    exact (flush_of_trim h.trimmed).1 a value rfl

/-- The sigil of a tag is read behind the blanks of the opening delimiter. -/
theorem shift_sigil {sigil y : List Char} (hs : sigil = [] ∨ ∃ x, sigil = [x] ∧ TokenKind.isSigil x)
    (hy : Flush y) (hplain : sigil = [] → ∃ a r, y = a :: r ∧ ¬ TokenKind.isSigil a)
    {b c : List Char} (hb : Blank b) (hc : Blank c) :
    ∃ b' c', Blank b' ∧ Blank c' ∧ b ++ (sigil ++ c) = b' ++ (sigil ++ c') ∧
      Flush (sigil ++ (c' ++ y)) ∧
      TagRead.sigilHere.take (sigil ++ (c' ++ y)) = (sigil, c' ++ y) := by
  rcases hs with rfl | ⟨x, rfl, hx⟩
  · obtain ⟨a, r, rfl, ha⟩ := hplain rfl
    refine ⟨b ++ c, [], hb.append hc, by simp [Blank], by simp, hy, ?_⟩
    simp [TagRead.sigilHere, Pattern.take, Pattern.oneOf, ha]
  · refine ⟨b, c, hb, hc, rfl, ?_, ?_⟩
    · intro z r hz
      obtain ⟨rfl, -⟩ := List.cons.inj hz
      exact sigil_not_blank hx
    · simp [TagRead.sigilHere, Pattern.take, Pattern.oneOf, hx]

theorem ofTag_written {sigil value : List Char} (hs : sigil ≠ ['=']) (ht : trim value = value)
    (hv : TokenKind.ofSigil sigil = .comment ∨ value ≠ []) (span : Span) :
    Lexeme.ofTag d span sigil value = (.token ⟨.ofSigil sigil, String.ofList value, span⟩, d) := by
  have hk : TokenKind.ofSigil sigil ≠ .setDelimiters := by
    intro hk
    unfold TokenKind.ofSigil at hk
    split at hk <;> simp_all
  rcases Lexeme.ofTag_cases d span sigil value with ⟨d', h, -, -⟩ | ⟨h, -, -⟩ | ⟨-, h1, h2, -⟩ |
    ⟨-, -, he⟩
  · exact absurd h hk
  · exact absurd h hk
  · rw [ht] at h2
    exact absurd h2 (hv.resolve_left h1)
  · rw [he, ht]

theorem step_printed (hd : d.Words) {sigil value : List Char}
    (hs : sigil = [] ∨ ∃ x, sigil = [x] ∧ TokenKind.isSigil x) (hne : sigil ≠ ['='])
    (h : Holds d sigil value) (hv : TokenKind.ofSigil sigil = .comment ∨ value ≠ [])
    (hplain : sigil = [] → ∃ a r, value = a :: r ∧ ¬ TokenKind.isSigil a)
    (sp : Spacing) (pos : Nat) (rest : List Char) :
    Cursor.Step ⟨d, pos, printTag d sp sigil value ++ rest⟩ (printTag d sp sigil value)
      (.token ⟨.ofSigil sigil, String.ofList value,
        .ofBounds pos (pos + byteLength (printTag d sp sigil value))⟩)
      ⟨d, pos + byteLength (printTag d sp sigil value), rest⟩ := by
  obtain ⟨c, e, hc, he, hce, hflush⟩ := shift_blanks hd h sp rest
  obtain ⟨m, hend, hm⟩ := ends_printed hd hne h he rest
  obtain ⟨b, c', hb, hc', hbc, hsf, htake⟩ := shift_sigil hs hflush
    (fun hn => by obtain ⟨a, r, rfl, ha⟩ := hplain hn; exact ⟨a, _, rfl, ha⟩) sp.opening_blank hc
  have hprint : printTag d sp sigil value =
      (d.opening.toList ++ b) ++ (sigil ++ (c' ++ (value ++ (e ++ tail d sigil)))) := by
    rw [printTag, hce, ← List.append_assoc sigil, ← List.append_assoc sp.opening, hbc]
    simp
  generalize hu : sigil ++ (c' ++ (value ++ (e ++ tail d sigil))) = u at hprint
  have hur : sigil ++ (c' ++ (value ++ (e ++ (tail d sigil ++ rest)))) = u ++ rest := by
    rw [← hu]; simp
  rw [hur] at hsf htake
  have hopen := Pattern.opening_eq (w := d.opening.toList) hb hsf
  rw [← List.append_assoc] at hopen
  have hread : TagRead.read d.closing.toList (u ++ rest) = .closed sigil value rest :=
    TagRead.read_closed_iff.2 ⟨c', _, m, htake, hc', hflush, hend, hm⟩
  rw [hprint, List.append_assoc _ u]
  exact Cursor.Step.tag hopen (by simp [hd.opening_ne]) hread (ofTag_written hne h.trimmed hv _)

/-! ## Reading a template -/

def Opens (d : Delimiters) (rest : List Char) : Prop := rest = [] ∨ d.opening.toList <+: rest

theorem Opens.printTag (sp : Spacing) (sigil value rest : List Char) :
    Opens d (printTag d sp sigil value ++ rest) := by
  refine .inr ?_
  rw [Markup.printTag, List.append_assoc]
  exact List.prefix_append _ _

theorem Opens.printAll {ms : List Markup} (h : ∀ m ∈ ms.head?, ¬ m.isText) {rest : List Char}
    (hr : Opens d rest) : Opens d (printAll d ms ++ rest) := by
  cases ms with
  | nil => exact hr
  | cons m ms =>
    cases m with
    | text s => exact absurd rfl (h (.text s) (by simp))
    | tag form sp value =>
      rw [Markup.printAll, Markup.print, List.append_assoc]
      exact .printTag _ _ _ _
    | sectionTag inverted name sp children close =>
      rw [Markup.printAll, Markup.print, List.append_assoc, List.append_assoc]
      exact .printTag _ _ _ _

theorem toList_ne {s : String} (h : s ≠ "") : s.toList ≠ [] := fun hn =>
  h (String.toList_inj.1 hn)

theorem read_tag (hd : d.Words) {form : Form} {sp : Spacing} {value : String} {rest : List Char}
    (h : WellFormed d (.tag form sp value) rest) (pos : Nat) :
    Lexeme.read d pos (printTag d sp form.sigil value.toList ++ rest) =
      .token ⟨.ofSigil form.sigil, value,
        .ofBounds pos (pos + byteLength (printTag d sp form.sigil value.toList))⟩ ::
      Lexeme.read d (pos + byteLength (printTag d sp form.sigil value.toList)) rest := by
  obtain ⟨hh, hv, hp⟩ := h
  have hs := form.sigil_spec
  have := step_printed hd hs.1 hs.2 hh ?_ ?_ sp pos rest
  · simpa [Cursor.read] using this.read
  · by_cases hc : form = .comment
    · subst hc
      exact .inl rfl
    · exact .inr (toList_ne (hv hc))
  · intro hn
    have he : form = .escaped := by cases form <;> first | rfl | simp [Form.sigil] at hn
    have hne : form ≠ .comment := by rw [he]; decide
    obtain ⟨a, r, har⟩ := List.exists_cons_of_ne_nil (toList_ne (hv hne))
    exact ⟨a, r, har, by simpa [har] using hp he⟩

theorem read_sectionTag (hd : d.Words) {sigil : List Char} (hs : sigil ∈ [['#'], ['^'], ['/']])
    {name : String} (h : Holds d ['/'] name.toList) (hn : name ≠ "") (sp : Spacing) (pos : Nat)
    (rest : List Char) :
    Lexeme.read d pos (printTag d sp sigil name.toList ++ rest) =
      .token ⟨.ofSigil sigil, name,
        .ofBounds pos (pos + byteLength (printTag d sp sigil name.toList))⟩ ::
      Lexeme.read d (pos + byteLength (printTag d sp sigil name.toList)) rest := by
  have h1 : sigil ≠ [] ∧ sigil ≠ ['='] ∧ (∃ x, sigil = [x] ∧ TokenKind.isSigil x) ∧
      tail d sigil = tail d ['/'] := by
    simp only [List.mem_cons, List.not_mem_nil, or_false] at hs
    rcases hs with rfl | rfl | rfl <;>
      exact ⟨by simp, by simp, ⟨_, rfl, by decide⟩, rfl⟩
  have hh : Holds d sigil name.toList := ⟨h.trimmed, by rw [h1.2.2.2]; exact h.clear⟩
  have := step_printed hd (.inr h1.2.2.1) h1.2.1 hh (.inr (toList_ne hn))
    (fun hn => absurd hn h1.1) sp pos rest
  simpa [Cursor.read] using this.read

mutual

/-- Every element is read as its tokens, whatever stands behind it. -/
theorem read_print (hd : d.Words) (m : Markup) (pos : Nat) (rest : List Char)
    (h : WellFormed d m rest) (hr : m.isText → Opens d rest) :
    Lexeme.read d pos (print d m ++ rest) =
      (tokens Token.ofText d pos m).map .token ++
        Lexeme.read d (pos + byteLength (print d m)) rest := by
  cases m with
  | text s =>
    have hm : (Pattern.opening d.opening.toList).Misses s.toList rest := by
      intro x y hxy hy
      rw [← Option.not_isSome_iff_eq_none, Pattern.opening_isSome]
      exact h.2 x y hxy hy
    exact Cursor.read_text hm ((hr rfl).imp id Pattern.opening_isSome.2) pos
  | tag form sp value => exact read_tag hd h pos
  | sectionTag inverted name sp children close =>
    obtain ⟨hh, hn, hc⟩ := h
    have hsig : sectionSigil inverted ∈ [['#'], ['^'], ['/']] := by cases inverted <;> decide
    rw [print, List.append_assoc, List.append_assoc, read_sectionTag hd hsig hh hn,
      read_printAll hd children _ _ hc (.printTag _ _ _ _), read_sectionTag hd (by simp) hh hn]
    simp [tokens, TokenKind.ofSigil, byteLength_append, Nat.add_assoc]

theorem read_printAll (hd : d.Words) (ms : List Markup) (pos : Nat) (rest : List Char)
    (h : AllWellFormed d ms rest) (hr : Opens d rest) :
    Lexeme.read d pos (printAll d ms ++ rest) =
      (tokensAll Token.ofText d pos ms).map .token ++
        Lexeme.read d (pos + byteLength (printAll d ms)) rest := by
  cases ms with
  | nil => simp [printAll, tokensAll, byteLength_nil]
  | cons m ms =>
    obtain ⟨hm, ht, hms⟩ := h
    rw [printAll, List.append_assoc,
      read_print hd m _ _ hm fun hx => .printAll (ht hx) hr, read_printAll hd ms _ _ hms hr]
    simp [tokensAll, byteLength_append, Nat.add_assoc]

end

/-! ## Building the tree -/

def whole (pos : Nat) (s : List Char) : List Token :=
  [⟨.text, String.ofList s, .ofBounds pos (pos + byteLength s)⟩]

theorem ofSigil_not_text (sigil : List Char) (value : String) (span : Span) :
    (⟨.ofSigil sigil, value, span⟩ : Token).isText = false := by
  simpa [Token.isText] using TokenKind.ofSigil_ne_text sigil

theorem tokens_head (ofText : Nat → List Char → List Token) (d : Delimiters) (pos : Nat)
    {m : Markup} (h : ¬ m.isText) : ∃ t ts, tokens ofText d pos m = t :: ts ∧ ¬ t.isText := by
  cases m with
  | text s => exact absurd rfl h
  | tag form sp value => exact ⟨_, _, rfl, by simp [ofSigil_not_text]⟩
  | sectionTag inverted name sp children close => exact ⟨_, _, rfl, by simp [ofSigil_not_text]⟩

theorem tokensAll_head {ofText : Nat → List Char → List Token} {pos : Nat} {ms : List Markup}
    (h : ∀ m ∈ ms.head?, ¬ m.isText) {us : List Token} (hu : ∀ u ∈ us.head?, ¬ u.isText) :
    ∀ u ∈ (tokensAll ofText d pos ms ++ us).head?, ¬ u.isText := by
  cases ms with
  | nil => exact hu
  | cons m ms =>
    obtain ⟨t, ts, he, ht⟩ := tokens_head ofText d pos (h m (by simp))
    intro u hu
    obtain rfl : t = u := by simpa [tokensAll, he] using hu
    exact ht

mutual

/-- The characters of each literal text are joined, and nothing else is. -/
theorem squash_tokens (m : Markup) (pos : Nat) (rest : List Char) {us : List Token}
    (h : WellFormed d m rest) (hu : m.isText → ∀ u ∈ us.head?, ¬ u.isText) :
    Token.squash (tokens Token.ofText d pos m ++ us) = tokens whole d pos m ++ Token.squash us := by
  cases m with
  | text s => exact Token.squash_ofText pos (toList_ne h.1) (hu rfl)
  | tag form sp value => exact Token.squash_other us (ofSigil_not_text _ _ _)
  | sectionTag inverted name sp children close =>
    rw [tokens, tokens, List.cons_append, List.append_assoc,
      Token.squash_other _ (ofSigil_not_text _ _ _),
      squash_tokensAll children _ _ h.2.2 (by simp [Token.isText]), List.singleton_append,
      Token.squash_other us rfl]
    simp

theorem squash_tokensAll (ms : List Markup) (pos : Nat) (rest : List Char) {us : List Token}
    (h : AllWellFormed d ms rest) (hu : ∀ u ∈ us.head?, ¬ u.isText) :
    Token.squash (tokensAll Token.ofText d pos ms ++ us) =
      tokensAll whole d pos ms ++ Token.squash us := by
  cases ms with
  | nil => rfl
  | cons m ms =>
    obtain ⟨hm, ht, hms⟩ := h
    rw [tokensAll, List.append_assoc,
      squash_tokens m pos _ hm fun hx => tokensAll_head (ht hx) hu, squash_tokensAll ms _ _ hms hu,
      tokensAll, List.append_assoc]

end

/-- What stands between the tags of a section becomes its children. -/
theorem insert_section (n : Nesting) (inverted : Bool) (name : String)
    {pos inside stop stop' : Nat} (h : pos ≤ inside) (ns : List Node) :
    Nesting.step
      (Nesting.insertAll
        (Nesting.step n ⟨.ofSigil (sectionSigil inverted), name, .ofBounds pos inside⟩) ns)
      ⟨.close, name, .ofBounds stop stop'⟩ =
    n.insertAll [.sectionTag name inverted (.ofBounds pos inside) (.ofBounds inside stop) ns] := by
  have hk : (TokenKind.ofSigil (sectionSigil inverted)).opensSection := by cases inverted <;> rfl
  have hi : (TokenKind.ofSigil (sectionSigil inverted) == .invertedStart) = inverted := by
    cases inverted <;> rfl
  have hbody : Span.ofBounds (Span.ofBounds pos inside).stop.toNat
      (Span.ofBounds stop stop').start.toNat = .ofBounds inside stop := by
    rw [Span.ofBounds_stop h]
    exact Span.ofBounds_congr (Span.clamp_clamp _) (Span.clamp_clamp _)
  generalize ht : (⟨.ofSigil (sectionSigil inverted), name, .ofBounds pos inside⟩ : Token) = t
  have hkt : t.kind.opensSection := by rw [← ht]; exact hk
  have hopen : ((Nesting.step n t).insertAll ns).opened =
      [] ++ (OpenSection.ofTag t).grow ns :: n.opened := by
    rw [Nesting.step_opens n hkt]
    rfl
  rw [Nesting.step_close _ rfl, Nesting.close_matched hopen (by simp) (by rw [← ht]; rfl),
    Nesting.step_opens n hkt, ← ht]
  simp [OpenSection.collapse, OpenSection.finish, OpenSection.grow, OpenSection.ofTag, hi, hbody]
  rfl

mutual

/-- The tokens of an element add its node and leave nothing open. -/
theorem foldl_tokens (m : Markup) (pos : Nat) (n : Nesting) :
    (tokens whole d pos m).foldl Nesting.step n = n.insertAll [node d pos m] := by
  cases m with
  | text s => simp [tokens, whole, node, Nesting.step, Nesting.insert_eq]
  | tag form sp value =>
    cases form <;> exact Nesting.insert_eq n _
  | sectionTag inverted name sp children close =>
    rw [tokens, List.foldl_cons, List.foldl_append, foldl_tokensAll children]
    exact insert_section n inverted name (Nat.le_add_right _ _) _

theorem foldl_tokensAll (ms : List Markup) (pos : Nat) (n : Nesting) :
    (tokensAll whole d pos ms).foldl Nesting.step n = n.insertAll (nodes d pos ms) := by
  cases ms with
  | nil => exact (Nesting.insertAll_nil n).symm
  | cons m ms =>
    rw [tokensAll, List.foldl_append, foldl_tokens m, foldl_tokensAll ms, Nesting.insertAll_insertAll]
    rfl

end

end Markup

/-- Parsing gives back the tree that a well-formed template was written out from. -/
theorem parse_printed (d : Delimiters) (hd : d.Words) (ms : List Markup)
    (h : Markup.AllWellFormed d ms []) :
    Template.parse d (String.ofList (Markup.printAll d ms)) =
      ⟨String.ofList (Markup.printAll d ms), d, Markup.nodes d 0 ms, []⟩ := by
  have hread : Template.lexemes d (String.ofList (Markup.printAll d ms)) =
      (Markup.tokensAll Token.ofText d 0 ms).map .token := by
    have hend : Lexeme.read d (0 + byteLength (Markup.printAll d ms)) [] = [] :=
      Cursor.Stop.done.read
    have := Markup.read_printAll hd ms 0 [] h (.inl rfl)
    rw [List.append_nil, hend, List.append_nil] at this
    rw [Template.lexemes, String.toList_ofList, this]
  have hsquash := @Markup.squash_tokensAll d ms 0 [] [] h (by simp)
  have hnest : (Markup.tokensAll Markup.whole d 0 ms).foldl Nesting.step {} =
      ⟨[], Markup.nodes d 0 ms, []⟩ := by
    rw [Markup.foldl_tokensAll]
    simp [Nesting.insertAll]
  rw [List.append_nil, Token.squash, List.append_nil] at hsquash
  simp only [Template.parse, hread, Lexeme.tokens_map, Lexeme.problems_map, hsquash, Template.nest,
    hnest]
  rfl

namespace Markup

def wide : Spacing := ⟨[' '], [], ['\n'], by decide +kernel, by decide +kernel, by decide +kernel⟩

def narrow : Spacing := ⟨[], [], [], by simp [Blank], by simp [Blank], by simp [Blank]⟩

/-- A section in one of its own name, a text that ends in half an opening delimiter,
and a brace tag whose name ends in a brace. -/
def nested : List Markup :=
  [.text "a<", .sectionTag false "s" wide
    [.tag .braces narrow "n\x7d", .sectionTag true "s" narrow [.text "b %"] wide] narrow,
    .tag .comment wide ""]

end Markup

theorem parse_printed_nested :
    (⟨"<%", "%>"⟩ : Delimiters).Words ∧ Markup.AllWellFormed ⟨"<%", "%>"⟩ Markup.nested [] ∧
    Template.parse ⟨"<%", "%>"⟩ (String.ofList (Markup.printAll ⟨"<%", "%>"⟩ Markup.nested)) =
      ⟨String.ofList (Markup.printAll ⟨"<%", "%>"⟩ Markup.nested), ⟨"<%", "%>"⟩,
        Markup.nodes ⟨"<%", "%>"⟩ 0 Markup.nested, []⟩ := by
  have hd : (⟨"<%", "%>"⟩ : Delimiters).Words :=
    ⟨by decide +kernel, by decide +kernel, by decide +kernel, by decide +kernel⟩
  have h : Markup.AllWellFormed ⟨"<%", "%>"⟩ Markup.nested [] := by decide +kernel
  exact ⟨hd, h, parse_printed _ hd _ h⟩

end Stencil
