import Stencil.Key.TopLevel
import Mathlib.Data.List.Infix

/-!
# Places in a key

Scans of a key differ in the character they look for and in where they start, not in how
they follow quotes and parentheses. A text that brings a scan back to the level it stood
on without meeting that character there is skipped as a whole, so texts that are skipped
can be joined by the character and are cut apart again.
-/

set_option autoImplicit false

namespace Stencil.Key

namespace Place

def after (p : Place) (s : List Char) : Place := s.foldl step p

theorem after_append (p : Place) (s t : List Char) : p.after (s ++ t) = (p.after s).after t :=
  List.foldl_append

theorem after_cons (p : Place) (c : Char) (s : List Char) :
    p.after (c :: s) = (p.step c).after s := rfl

theorem after_snoc (p : Place) (s : List Char) (c : Char) :
    p.after (s ++ [c]) = (p.after s).step c := after_append p s [c]

def level (n : Nat) : Place := { depth := n }

def within (q : Char) (n : Nat) : Place := { quote := some q, depth := n }

theorem top_level {n : Nat} : (level n).top = true ↔ n = 0 := by simp [level, top]

theorem top_within (q : Char) (n : Nat) : (within q n).top = false := rfl

def Inert (c : Char) : Prop := isQuote c = false ∧ c ≠ '(' ∧ c ≠ ')'

instance (c : Char) : Decidable (Inert c) := inferInstanceAs (Decidable (_ ∧ _ ∧ _))

theorem step_inert {c : Char} (h : Inert c) (n : Nat) : (level n).step c = level n := by
  simp [level, step, h.1, h.2.1, h.2.2]

theorem step_open (n : Nat) : (level n).step '(' = level (n + 1) := rfl

theorem step_close (n : Nat) : (level (n + 1)).step ')' = level n := rfl

theorem step_quote {q : Char} (h : isQuote q = true) (n : Nat) :
    (level n).step q = within q n := by
  simp [level, within, step, h]

theorem step_counted {c : Char} {n : Nat} (hq : isQuote c = false) (hc : c = ')' → 0 < n) :
    (level n).step c = level (n + [c].count '(' - [c].count ')') := by
  by_cases ho : c = '('
  · subst ho
    rfl
  · by_cases hcl : c = ')'
    · subst hcl
      obtain ⟨m, rfl⟩ := Nat.exists_eq_succ_of_ne_zero (Nat.ne_of_gt (hc rfl))
      rfl
    · rw [step_inert ⟨hq, ho, hcl⟩]
      simp [ho, hcl]

/-- Without quotes the level is told by the parentheses, if none closes what was never
opened. -/
theorem after_counted {s : List Char} {n : Nat} (hq : ∀ c ∈ s, isQuote c = false)
    (hc : ∀ a, a <+: s → a.count ')' ≤ n + a.count '(') :
    (level n).after s = level (n + s.count '(' - s.count ')') := by
  induction s using List.reverseRecOn with
  | nil => rfl
  | append_singleton a c ih =>
    have hbefore := ih (fun d hd => hq d (by simp [hd]))
      fun b hb => hc b (hb.trans (List.prefix_append _ _))
    have hle := hc a (List.prefix_append _ _)
    have hall := hc _ (List.prefix_refl _)
    rw [List.count_append, List.count_append] at hall
    have hpos : c = ')' → 0 < n + a.count '(' - a.count ')' := by
      rintro rfl
      simp at hall
      omega
    rw [after_snoc, hbefore, step_counted (hq c (by simp)) hpos, List.count_append,
      List.count_append]
    congr 1
    omega

end Place

open Place

theorem meets_append (d : Char) (p : Place) (s t : List Char) :
    meets d p (s ++ t) = (meets d p s || meets d (p.after s) t) := by
  induction s generalizing p with
  | nil => rfl
  | cons c s ih =>
    rw [List.cons_append, meets, meets, ih, Bool.or_assoc]
    rfl

/-- What a scan meets stands on the top level behind what comes before it. -/
theorem meets_iff {d : Char} {p : Place} {s : List Char} :
    meets d p s = true ↔ ∃ a b, s = a ++ d :: b ∧ (p.after a).top = true := by
  induction s generalizing p with
  | nil => simp [meets]
  | cons c s ih =>
    rw [meets, Bool.or_eq_true, Bool.and_eq_true, beq_iff_eq, ih]
    constructor
    · rintro (⟨ht, rfl⟩ | ⟨a, b, rfl, ht⟩)
      · exact ⟨[], s, rfl, ht⟩
      · exact ⟨c :: a, b, rfl, ht⟩
    · rintro ⟨a, b, he, ht⟩
      cases a with
      | nil =>
        obtain ⟨rfl, rfl⟩ := List.cons.inj he
        exact .inl ⟨ht, rfl⟩
      | cons e a =>
        obtain ⟨rfl, rfl⟩ := List.cons.inj he
        exact .inr ⟨a, b, rfl, ht⟩

theorem cutFrom_append {d : Char} {p : Place} {s : List Char} (h : meets d p s = false)
    (t : List Char) :
    cutFrom d p (s ++ t) = (s ++ (cutFrom d (p.after s) t).1, (cutFrom d (p.after s) t).2) := by
  induction s generalizing p with
  | nil => rfl
  | cons c s ih =>
    rw [meets, Bool.or_eq_false_iff] at h
    rw [List.cons_append, cutFrom, h.1, ih h.2]
    rfl

theorem arguments_append {p : Place} {s : List Char} (h : meets ')' p s = false) (t : List Char) :
    arguments p (s ++ t) = s ++ arguments (p.after s) t := by
  induction s generalizing p with
  | nil => rfl
  | cons c s ih =>
    rw [meets, Bool.or_eq_false_iff] at h
    rw [List.cons_append, arguments, h.1, ih h.2]
    rfl

/-- A text on level `n` behind which a scan for `d` goes on as if it were not there. -/
structure Skips (d : Char) (n : Nat) (s : List Char) : Prop where
  back : (level n).after s = level n
  unmet : meets d (level n) s = false

namespace Skips

variable {d : Char} {n : Nat} {s t : List Char}

theorem append (hs : Skips d n s) (ht : Skips d n t) : Skips d n (s ++ t) := by
  refine ⟨by rw [after_append, hs.back, ht.back], ?_⟩
  rw [meets_append, hs.unmet, hs.back, ht.unmet]
  rfl

theorem inert (hs : ∀ c ∈ s, Inert c) (hd : d ∉ s) : Skips d n s := by
  induction s with
  | nil => exact ⟨rfl, rfl⟩
  | cons c s ih =>
    rw [List.mem_cons, not_or] at hd
    have hrest := ih (fun e he => hs e (List.mem_cons_of_mem _ he)) hd.2
    have hc := step_inert (hs c List.mem_cons_self) n
    refine ⟨?_, ?_⟩
    · rw [after_cons, hc, hrest.back]
    · have hne : (c == d) = false := by simpa using Ne.symm hd.1
      rw [meets, hc, hrest.unmet, hne, Bool.and_false]
      rfl

theorem of_all (h : s.all (fun c => decide (Inert c) && c != d) = true) : Skips d n s := by
  simp only [List.all_eq_true, Bool.and_eq_true, decide_eq_true_eq, bne_iff_ne] at h
  exact .inert (fun c hc => (h c hc).1) fun hd => (h d hd).2 rfl

/-- Balanced parentheses bring a scan back to its level, and on any but the top one there
is nothing to be met between them. -/
theorem balanced (hs : ∀ c ∈ s, isQuote c = false)
    (hc : ∀ a, a <+: s → a.count ')' ≤ a.count '(') (he : s.count '(' = s.count ')')
    (hd : ∀ a b, s = a ++ d :: b → n = 0 → a.count ')' < a.count '(') : Skips d n s := by
  have hafter : ∀ a, a <+: s → (level n).after a = level (n + a.count '(' - a.count ')') :=
    fun a ha => after_counted (fun c h => hs c (ha.subset h))
      fun b hb => Nat.le_add_left_of_le (hc b (hb.trans ha))
  refine ⟨?_, ?_⟩
  · rw [hafter s (List.prefix_refl s), he, Nat.add_sub_cancel]
  · rw [← Bool.not_eq_true, meets_iff]
    rintro ⟨a, b, rfl, ht⟩
    rw [hafter a (List.prefix_append _ _), top_level] at ht
    have hle := hc a (List.prefix_append _ _)
    have hlt := hd a b rfl
    omega

theorem parens (hd : d ≠ '(') (hd' : d ≠ ')') (hs : Skips d (n + 1) s) :
    Skips d n ('(' :: (s ++ [')'])) := by
  refine ⟨?_, ?_⟩
  · rw [after_cons, step_open, after_snoc, hs.back, step_close]
  · have hopen : ('(' == d) = false := by simpa using Ne.symm hd
    have hclose : (')' == d) = false := by simpa using Ne.symm hd'
    rw [meets, hopen, Bool.and_false, Bool.false_or, step_open, meets_append, hs.unmet, hs.back,
      meets, hclose, Bool.and_false]
    rfl

end Skips

/-- Texts joined by `d` that a scan for `d` skips are cut where they were joined. -/
theorem cutFrom_joined {d : Char} {s : List Char} {ts : List (List Char)} (hs : Skips d 0 s)
    (ht : ∀ t ∈ ts, Skips d 0 t) : cutFrom d {} (s ++ ts.flatMap (d :: ·)) = (s, ts) := by
  induction ts generalizing s with
  | nil =>
    show cutFrom d (level 0) _ = _
    rw [cutFrom_append hs.unmet]
    simp [cutFrom]
  | cons t ts ih =>
    have hrest := ih (ht t List.mem_cons_self) fun u hu => ht u (List.mem_cons_of_mem _ hu)
    have hhere : ((level 0).top && d == d) = true := by simp [top_level]
    show cutFrom d (level 0) _ = _
    rw [cutFrom_append hs.unmet, hs.back, List.flatMap_cons, List.cons_append, cutFrom, hhere]
    simp only [if_true]
    rw [show level 0 = {} from rfl, hrest]
    simp

theorem meets_joined {d : Char} {s : List Char} {ts : List (List Char)} (hs : Skips d 0 s) :
    meets d {} (s ++ ts.flatMap (d :: ·)) = !ts.isEmpty := by
  show meets d (level 0) _ = _
  rw [meets_append, hs.unmet, hs.back]
  cases ts with
  | nil => rfl
  | cons t ts =>
    rw [List.flatMap_cons, List.cons_append, meets]
    simp [top_level]

end Stencil.Key
