import Stencil.Lookup.Path
import Stencil.Proofs.Template.InForce
import Stencil.Proofs.Template.Patterns

/-!
# Fields

The field of a key is what stands before its first bar on the top level. A field that is
a dotted path of trimmed segments without bars is read as it stands, by a scope and by a
node alike: taken apart once more it is its own field, without formatters.
-/

set_option autoImplicit false

namespace Stencil

theorem dropDot_of_ne {s : List Char} (h : ∀ r, s ≠ '.' :: r) : dropDot s = s := by
  unfold dropDot
  split
  · next r => exact absurd rfl (h r)
  · rfl

namespace Key

open Text

theorem cutFrom_of_meets {d : Char} {p : Place} {s : List Char} (h : meets d p s = false) :
    cutFrom d p s = (s, []) := by
  induction s generalizing p with
  | nil => rfl
  | cons c s ih =>
    rw [meets, Bool.or_eq_false_iff] at h
    rw [cutFrom, h.1, ih h.2]
    rfl

theorem meets_of_not_mem {d : Char} (p : Place) {s : List Char} (h : d ∉ s) :
    meets d p s = false := by
  induction s generalizing p with
  | nil => rfl
  | cons c s ih =>
    rw [List.mem_cons, not_or] at h
    have hc : (c == d) = false := by simpa using Ne.symm h.1
    rw [meets, hc, Bool.and_false, Bool.false_or]
    exact ih _ h.2

theorem parse_bare {key : List Char} (h : hasPipeline key = false) (ht : trim key = key) :
    parse key = ⟨key, []⟩ := by
  rw [parse, cutFrom_of_meets h]
  show (⟨trim key, []⟩ : Pipeline) = _
  rw [ht]

structure Segment (s : List Char) : Prop where
  ne_nil : s ≠ []
  trimmed : trim s = s
  no_bar : '|' ∉ s
  no_dot : '.' ∉ s

instance (s : List Char) : Decidable (Segment s) :=
  decidable_of_iff (s ≠ [] ∧ trim s = s ∧ '|' ∉ s ∧ '.' ∉ s)
    ⟨fun ⟨h1, h2, h3, h4⟩ => ⟨h1, h2, h3, h4⟩, fun ⟨h1, h2, h3, h4⟩ => ⟨h1, h2, h3, h4⟩⟩

inductive Dotted : List Char → Prop
  | single {s : List Char} : Segment s → Dotted s
  | cons {s r : List Char} : Segment s → Dotted r → Dotted (s ++ '.' :: r)

def Simple (field : List Char) : Prop := field = ['.'] ∨ Dotted (dropDot field)

theorem no_cut {s : List Char} (h : '.' ∉ s) : ∀ c ∈ s, (c == '.') = false := by
  intro c hc
  rw [beq_eq_false_iff_ne]
  rintro rfl
  exact h hc

theorem no_dot_ne {s : List Char} (h : '.' ∉ s) : ∀ c ∈ s, (c != '.') = true := fun c hc => by
  rw [bne, no_cut h c hc]
  rfl

theorem head_whole {s : List Char} (h : '.' ∉ s) : head s = (s, none) := by
  rw [head, List.takeWhile_eq_self_iff.2 (no_dot_ne h), List.dropWhile_eq_nil_iff.2 (no_dot_ne h)]

theorem head_cut {s : List Char} (h : '.' ∉ s) (r : List Char) :
    head (s ++ '.' :: r) = (s, some r) := by
  rw [head, List.takeWhile_append_of_pos (no_dot_ne h), List.dropWhile_append_of_pos (no_dot_ne h)]
  simp

theorem cutAt_head (path : List Char) :
    cutAt (· == '.') path =
      (head path).1 :: (head path).2.elim [] (cutAt (· == '.')) := by
  by_cases hd : '.' ∈ path
  · obtain ⟨s, r, rfl, hs⟩ := List.eq_append_cons_of_mem hd
    rw [head_cut hs, cutAt_append (no_cut hs) (by decide)]
    rfl
  · rw [head_whole hd, cutAt_of_none (no_cut hd)]
    rfl

namespace Dotted

variable {path : List Char}

theorem no_bar (h : Dotted path) : '|' ∉ path := by
  induction h with
  | single hs => exact hs.no_bar
  | cons hs _ ih =>
    rw [List.mem_append, List.mem_cons]
    rintro (h | h | h)
    · exact hs.no_bar h
    · cases h
    · exact ih h

theorem flush (h : Dotted path) : path ≠ [] ∧ Flush path ∧ Flush path.reverse := by
  induction h with
  | single hs => exact ⟨hs.ne_nil, flush_of_trim hs.trimmed⟩
  | cons hs _ ih =>
    refine ⟨by simp, (flush_of_trim hs.trimmed).1.append hs.ne_nil _, ?_⟩
    rw [List.reverse_append, List.reverse_cons, List.append_assoc]
    exact ih.2.2.append (by simpa using ih.1) _

theorem ne_dot (h : Dotted path) (r : List Char) : path ≠ '.' :: r := by
  have hseg : ∀ s, Segment s → s.head? ≠ some '.' := fun s hs he =>
    hs.no_dot (List.mem_of_mem_head? he)
  have hne : path.head? ≠ some '.' := by
    cases h with
    | single hs => exact hseg _ hs
    | cons hs _ =>
      rw [List.head?_append_of_ne_nil _ hs.ne_nil]
      exact hseg _ hs
  rintro rfl
  exact hne rfl

theorem parse_eq (h : Dotted path) : Key.parse path = ⟨path, []⟩ :=
  parse_bare (meets_of_not_mem _ h.no_bar) (trim_of_flush h.flush.2.1 h.flush.2.2)

end Dotted

theorem dotted_of_cut {path : List Char} (h : ∀ s ∈ cutAt (· == '.') path, Segment s) :
    Dotted path := by
  by_cases hd : '.' ∈ path
  · obtain ⟨s, r, he, hs⟩ := List.eq_append_cons_of_mem hd
    have hlt : r.length < path.length := by
      rw [he, List.length_append, List.length_cons]
      omega
    rw [he, cutAt_append (no_cut hs) (by decide), List.forall_mem_cons] at h
    rw [he]
    exact .cons h.1 (dotted_of_cut h.2)
  · rw [cutAt_of_none (no_cut hd), List.forall_mem_singleton] at h
    exact .single h
termination_by path.length

theorem dotted_iff {path : List Char} :
    Dotted path ↔ ∀ s ∈ cutAt (· == '.') path, Segment s := by
  refine ⟨fun h => ?_, dotted_of_cut⟩
  induction h with
  | single hs =>
    rw [cutAt_of_none (no_cut hs.no_dot), List.forall_mem_singleton]
    exact hs
  | cons hs _ ih =>
    rw [cutAt_append (no_cut hs.no_dot) (by decide), List.forall_mem_cons]
    exact ⟨hs, ih⟩

instance (path : List Char) : Decidable (Dotted path) := decidable_of_iff _ dotted_iff.symm

instance (field : List Char) : Decidable (Simple field) := inferInstanceAs (Decidable (_ ∨ _))

end Key

end Stencil
