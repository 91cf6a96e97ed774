import Stencil.Proofs.Decimal.Whole
import Stencil.Proofs.Key.Field
import Stencil.Proofs.Key.Place

/-!
# Arguments

What can stand between the parentheses of a step: the keywords, whole numbers, texts in
quotes and barewords. Each reads back to its value, and the scans for bars, for commas
and for the closing parenthesis all pass it as a whole.
-/

set_option autoImplicit false

namespace Stencil.Key

open Text

abbrev Blanks : Type := { s : List Char // Blank s }

structure Padded (α : Type) where
  before : Blanks
  item : α
  behind : Blanks

def Padded.text {α : Type} (write : α → List Char) (p : Padded α) : List Char :=
  p.before.1 ++ write p.item ++ p.behind.1

inductive Quote
  | single
  | double

def Quote.char : Quote → Char
  | single => '\''
  | double => '"'

def escaped (q : Char) : List Char → List Char
  | [] => []
  | c :: r => if c = '\\' ∨ c = q then '\\' :: c :: escaped q r else c :: escaped q r

def Quote.text (q : Quote) (s : List Char) : List Char := q.char :: (escaped q.char s ++ [q.char])

def keywords : List (List Char) :=
  ["true".toList, "false".toList, "null".toList, "undefined".toList]

structure Bareword where
  text : List Char
  ne_nil : text ≠ []
  trimmed : trim text = text
  unquoted : '"' ∉ text ∧ '\'' ∉ text
  even : text.count '(' = text.count ')'
  covered : ∀ a, a <+: text → a.count ')' ≤ a.count '('
  commas : ∀ a b, text = a ++ ',' :: b → a.count ')' < a.count '('
  no_keyword : text ∉ keywords
  no_number : ∀ c r, text = c :: r → c.isDigit = false ∧ c ≠ '+' ∧ c ≠ '-' ∧ c ≠ '.'

inductive Argument
  | null
  | undefined
  | bool (b : Bool)
  | int (i : Int64)
  | quoted (q : Quote) (s : String)
  | bare (w : Bareword)

namespace Argument

def text : Argument → List Char
  | null => "null".toList
  | undefined => "undefined".toList
  | bool true => "true".toList
  | bool false => "false".toList
  | int i => (toString i.toInt).toList
  | quoted q s => q.text s.toList
  | bare w => w.text

def value : Argument → Value
  | null | undefined => .null
  | bool b => .bool b
  | int i => .int i
  | quoted _ s => .string s
  | bare w => .string (String.ofList w.text)

end Argument

theorem blank_inert {c : Char} (h : isBlank c = true) : Place.Inert c := by
  have hne : ∀ d, isBlank d = false → c ≠ d := by
    rintro d hd rfl
    rw [h] at hd
    cases hd
  refine ⟨?_, hne '(' (by decide), hne ')' (by decide)⟩
  simp [Place.isQuote, hne '"' (by decide), hne '\'' (by decide)]

theorem Skips.blanks {d : Char} (hd : isBlank d = false) (n : Nat) (b : Blanks) : Skips d n b.1 := by
  refine .inert (fun c hc => blank_inert (b.2 c hc)) fun hmem => ?_
  rw [b.2 d hmem] at hd
  cases hd

theorem trim_padded {b e s : List Char} (hb : Blank b) (he : Blank e) (hs : trim s = s) :
    trim (b ++ s ++ e) = s := by
  obtain ⟨hflush, hback⟩ := flush_of_trim hs
  have herev : Blank e.reverse := fun c hc => he c (List.mem_reverse.1 hc)
  rw [trim, List.append_assoc, dropBlanks_append hb]
  by_cases hne : s = []
  · subst hne
    rw [List.nil_append, ← List.append_nil e, dropBlanks_append he]
    rfl
  · rw [dropBlanks_of_flush (hflush.append hne e), List.reverse_append, dropBlanks_append herev,
      dropBlanks_of_flush hback, List.reverse_reverse]

namespace Padded

variable {α : Type} {write : α → List Char}

theorem trim_text {p : Padded α} (h : trim (write p.item) = write p.item) :
    trim (p.text write) = write p.item :=
  trim_padded p.before.2 p.behind.2 h

theorem skips {d : Char} {n : Nat} {p : Padded α} (hd : isBlank d = false)
    (h : Skips d n (write p.item)) : Skips d n (p.text write) :=
  ((Skips.blanks hd n p.before).append h).append (Skips.blanks hd n p.behind)

end Padded

namespace Quote

theorem isQuote_char (q : Quote) : Place.isQuote q.char = true := by cases q <;> rfl

theorem char_ne_backslash (q : Quote) : q.char ≠ '\\' := by cases q <;> decide

/-- Between its quotes a text is passed without meeting anything, and its closing quote is
the first one that is not escaped. -/
theorem escaped_after (q : Quote) (d : Char) (n : Nat) (s : List Char) :
    (Place.within q.char n).after (escaped q.char s) = .within q.char n ∧
      meets d (.within q.char n) (escaped q.char s) = false := by
  induction s with
  | nil => exact ⟨rfl, rfl⟩
  | cons c r ih =>
    have hpass : ∀ p : Place, p.quote.isSome → p.top = false := by
      rintro ⟨_ | q, e, m⟩ hp
      · cases hp
      · rfl
    rw [escaped]
    split
    · -- the backslash takes the character behind it out of play
      have htwo : ((Place.within q.char n).step '\\').step c = .within q.char n := rfl
      refine ⟨?_, ?_⟩
      · rw [Place.after_cons, Place.after_cons, htwo, ih.1]
      · rw [meets, meets, htwo, ih.2, hpass _ rfl, hpass _ rfl]
        rfl
    · next hc =>
      rw [not_or] at hc
      have hone : (Place.within q.char n).step c = .within q.char n := by
        simp [Place.step, Place.within, hc.1, hc.2]
      refine ⟨?_, ?_⟩
      · rw [Place.after_cons, hone, ih.1]
      · rw [meets, hone, ih.2, hpass _ rfl]
        rfl

theorem skips (q : Quote) {d : Char} (hd : d ≠ q.char) (n : Nat) (s : List Char) :
    Skips d n (q.text s) := by
  obtain ⟨hafter, hmeets⟩ := q.escaped_after d n s
  have hne : (q.char == d) = false := by simpa using Ne.symm hd
  have hclose : (Place.within q.char n).step q.char = .level n := by
    simp [Place.step, Place.within, Place.level, q.char_ne_backslash]
  refine ⟨?_, ?_⟩
  · rw [text, Place.after_cons, Place.step_quote q.isQuote_char, Place.after_snoc, hafter, hclose]
  · rw [text, meets, hne, Bool.and_false, Bool.false_or, Place.step_quote q.isQuote_char,
      meets_append, hmeets, hafter, meets, Place.top_within]
    rfl

theorem unescaped_escaped (q : Char) (s : List Char) : unescaped false (escaped q s) = s := by
  induction s with
  | nil => rfl
  | cons c r ih =>
    rw [escaped]
    split
    · rw [unescaped, if_pos rfl, unescaped, ih]
    · next hc =>
      rw [not_or] at hc
      rw [unescaped, if_neg hc.1, ih]

theorem unquote_text (q : Quote) (s : List Char) : unquote? (q.text s) = some s := by
  rw [text, unquote?, q.isQuote_char, List.getLast?_append_of_ne_nil _ (by simp),
    List.dropLast_append_of_ne_nil (by simp)]
  simp [unescaped_escaped]

theorem trim_text (q : Quote) (s : List Char) : trim (q.text s) = q.text s := by
  have hq : isBlank q.char = false := by cases q <;> rfl
  refine trim_of_flush ?_ ?_
  · intro c r h
    rw [← (List.cons.inj h).1, hq]
  · intro c r h
    rw [text, List.reverse_cons, List.reverse_append] at h
    rw [← (List.cons.inj h).1, hq]

end Quote

/-- The scans that come across an argument: for bars from outside of the parentheses, for
commas and for the closing parenthesis from inside of them. -/
inductive Scan : Char → Nat → Prop
  | bar : Scan '|' 1
  | comma : Scan ',' 0
  | closing : Scan ')' 0

theorem Scan.not_blank {d : Char} {n : Nat} (h : Scan d n) : isBlank d = false := by
  cases h <;> decide

theorem unquote_bare {c : Char} (hc : Place.isQuote c = false) (r : List Char) :
    unquote? (c :: r) = none := by
  rw [unquote?, hc]
  rfl

namespace Bareword

theorem unquoted_all (w : Bareword) : ∀ c ∈ w.text, Place.isQuote c = false := by
  intro c hc
  have hne : ∀ q, q ∉ w.text → c ≠ q := by
    rintro q hq rfl
    exact hq hc
  simp [Place.isQuote, hne '"' w.unquoted.1, hne '\'' w.unquoted.2]

theorem skips (w : Bareword) {d : Char} {n : Nat} (h : Scan d n) : Skips d n w.text := by
  refine .balanced w.unquoted_all w.covered w.even fun a b hab hn => ?_
  cases h with
  | bar => cases hn
  | comma => exact w.commas a b hab
  | closing =>
    have hle := w.covered (a ++ [')']) ⟨b, by rw [hab, List.append_assoc]; rfl⟩
    simp only [List.count_append, List.count_singleton, beq_iff_eq, Char.reduceEq,
      if_false, if_true] at hle
    omega

theorem literal_text (w : Bareword) : literal w.text = .string (String.ofList w.text) := by
  obtain ⟨c, r, hcr⟩ := List.exists_cons_of_ne_nil w.ne_nil
  have hq : Place.isQuote c = false := w.unquoted_all c (by rw [hcr]; exact List.mem_cons_self)
  have hword : ∀ k : String, k.toList ∈ keywords → String.ofList w.text ≠ k := by
    rintro k hk rfl
    exact w.no_keyword (by simpa using hk)
  obtain ⟨hdigit, hplus, hminus, hdot⟩ := w.no_number c r hcr
  have hunquote : unquote? w.text = none := by rw [hcr, unquote_bare hq]
  unfold literal
  simp only [hunquote, hword "true" (by simp [keywords]), hword "false" (by simp [keywords]),
    hword "null" (by simp [keywords]), hword "undefined" (by simp [keywords]), if_false, or_self]
  simp [hcr, hdigit, hplus, hminus, hdot]

end Bareword

theorem int_text {i : Int} {c : Char} (h : c ∈ (toString i).toList) :
    c.isDigit = true ∨ c = '-' := by
  have hdigit : c ∈ Nat.toDigits 10 i.natAbs → c.isDigit = true :=
    fun hc => Nat.isDigit_of_mem_toDigits (by decide) (by decide) hc
  by_cases hi : i < 0
  · rw [Decimal.toList_negative hi, List.mem_cons] at h
    exact h.symm.imp_left hdigit
  · rw [Decimal.toList_natural (Int.not_lt.1 hi)] at h
    exact .inl (hdigit h)

theorem int_head (i : Int) : ∃ c r, (toString i).toList = c :: r := by
  by_cases hi : i < 0
  · exact ⟨_, _, Decimal.toList_negative hi⟩
  · rw [Decimal.toList_natural (Int.not_lt.1 hi)]
    obtain ⟨c, r, hcr, -⟩ := Decimal.toDigits_cons i.natAbs
    exact ⟨c, r, hcr⟩

/-- Neither a digit nor a minus sign is any of the characters that matter to a scan. -/
theorem numeral_ne {c d : Char} (hc : c.isDigit = true ∨ c = '-') (hd : d.isDigit = false)
    (hm : d ≠ '-') : c ≠ d := by
  rintro rfl
  rcases hc with hc | hc
  · rw [hc] at hd
    cases hd
  · exact hm hc

theorem digit_solid {c : Char} (hc : c.isDigit = true) : isBlank c = false := by
  have hzero : '0'.toNat = 48 := rfl
  have hnine : '9'.toNat = 57 := rfl
  rw [Char.isDigit_iff_toNat] at hc
  simp only [isBlank, Bool.or_eq_false_iff, Bool.and_eq_false_iff, decide_eq_false_iff_not,
    beq_eq_false_iff_ne]
  omega

theorem literal_int {s : List Char} {c : Char} {r : List Char} {i : Int} (hs : s = c :: r)
    (hc : c.isDigit = true ∨ c = '-') (hi : Decimal.readInt? s = some i) :
    literal s = .int (Int64.ofInt i) := by
  have hq : Place.isQuote c = false := by
    simp [Place.isQuote, numeral_ne hc (d := '"') (by decide) (by decide),
      numeral_ne hc (d := '\'') (by decide) (by decide)]
  have hword : ∀ (a : Char) (b : List Char), a.isDigit = false → a ≠ '-' →
      String.ofList s ≠ String.ofList (a :: b) := by
    intro a b ha hm he
    rw [hs] at he
    exact numeral_ne hc ha hm (List.cons.inj (String.ofList_injective he)).1
  have hunquote : unquote? s = none := by rw [hs, unquote_bare hq]
  have htrue : String.ofList s ≠ "true" := hword 't' ['r', 'u', 'e'] (by decide) (by decide)
  have hfalse : String.ofList s ≠ "false" := hword 'f' ['a', 'l', 's', 'e'] (by decide) (by decide)
  have hnull : String.ofList s ≠ "null" := hword 'n' ['u', 'l', 'l'] (by decide) (by decide)
  have hundefined : String.ofList s ≠ "undefined" :=
    hword 'u' ['n', 'd', 'e', 'f', 'i', 'n', 'e', 'd'] (by decide) (by decide)
  unfold literal
  simp only [hunquote, htrue, hfalse, hnull, hundefined, if_false, or_self, hi]
  rcases hc with hc | rfl
  · simp [hs, hc]
  · simp [hs]

theorem Scan.not_numeral {d : Char} {n : Nat} (h : Scan d n) : d.isDigit = false ∧ d ≠ '-' := by
  cases h <;> decide

theorem trim_solid {s : List Char} (h : Solid s) : trim s = s := by
  refine trim_of_flush ?_ ?_
  · rintro c r rfl
    exact h c List.mem_cons_self
  · intro c r hcr
    exact h c (List.mem_reverse.1 (by rw [hcr]; exact List.mem_cons_self))

namespace Argument

theorem skips (a : Argument) {d : Char} {n : Nat} (h : Scan d n) : Skips d n a.text := by
  cases a with
  | quoted q s =>
    refine q.skips ?_ n s.toList
    cases h <;> cases q <;> decide
  | bare w => exact w.skips h
  | int i =>
    refine .inert (fun c hc => ?_) fun hmem => ?_
    · have hne := fun d => numeral_ne (d := d) (int_text hc)
      exact ⟨by simp [Place.isQuote, hne '"' (by decide), hne '\'' (by decide)],
        hne '(' (by decide) (by decide), hne ')' (by decide) (by decide)⟩
    · exact numeral_ne (int_text hmem) h.not_numeral.1 h.not_numeral.2 rfl
  | null => cases h <;> exact .of_all (by decide)
  | undefined => cases h <;> exact .of_all (by decide)
  | bool b => cases h <;> cases b <;> exact .of_all (by decide)

theorem trim_text (a : Argument) : trim a.text = a.text := by
  cases a with
  | quoted q s => exact q.trim_text s.toList
  | bare w => exact w.trimmed
  | int i =>
    refine trim_solid fun c hc => ?_
    cases hb : isBlank c with
    | false => rfl
    | true =>
      rcases int_text hc with hd | rfl
      · exact absurd hb (by simp [digit_solid hd])
      · cases hb
  | null => decide
  | undefined => decide
  | bool b => cases b <;> decide

theorem text_ne_nil (a : Argument) : a.text ≠ [] := by
  cases a with
  | quoted q s => exact List.cons_ne_nil _ _
  | bare w => exact w.ne_nil
  | int i =>
    obtain ⟨c, r, hcr⟩ := int_head i.toInt
    show (toString i.toInt).toList ≠ []
    rw [hcr]
    exact List.cons_ne_nil _ _
  | null => decide
  | undefined => decide
  | bool b => cases b <;> decide

theorem literal_text (a : Argument) : literal a.text = a.value := by
  cases a with
  | quoted q s =>
    show literal (q.text s.toList) = .string s
    unfold literal
    rw [q.unquote_text]
    exact congrArg Value.string String.ofList_toList
  | bare w => exact w.literal_text
  | int i =>
    obtain ⟨c, r, hcr⟩ := int_head i.toInt
    have hread := Decimal.readInt_toString ⟨i.le_toInt, i.toInt_lt⟩
    have hc : c.isDigit = true ∨ c = '-' := int_text (by rw [hcr]; exact List.mem_cons_self)
    show literal (toString i.toInt).toList = .int i
    rw [literal_int hcr hc hread, Int64.ofInt_toInt]
  | null => rfl
  | undefined => rfl
  | bool b => cases b <;> rfl

end Argument

end Stencil.Key
