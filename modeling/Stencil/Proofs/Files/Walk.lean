import Stencil.Files.Walk

/-!
# The order of a walk

The files that some paths name come in the order of their parts, each of them once,
however often it is named.
-/

set_option autoImplicit false

namespace Stencil

namespace Walk

section Repeats

variable {α : Type} [BEq α]

theorem eraseReps_loop (a : α) (as acc : List α) :
    List.eraseRepsBy.loop (· == ·) a as acc =
      acc.reverse ++ List.eraseRepsBy.loop (· == ·) a as [] := by
  induction as generalizing a acc with
  | nil => simp [List.eraseRepsBy.loop]
  | cons b as ih =>
    rw [List.eraseRepsBy.loop, List.eraseRepsBy.loop]
    split
    · exact ih a acc
    · rw [ih b (a :: acc), ih b [a]]
      simp

theorem eraseReps_cons (a b : α) (as : List α) :
    (a :: b :: as).eraseReps =
      if a == b then (a :: as).eraseReps else a :: (b :: as).eraseReps := by
  change List.eraseRepsBy.loop (· == ·) a (b :: as) [] = _
  rw [List.eraseRepsBy.loop]
  split
  · next h => rw [h]; rfl
  · next h => rw [h, eraseReps_loop]; rfl

variable [LawfulBEq α]

theorem mem_eraseReps {x : α} {as : List α} : x ∈ as.eraseReps ↔ x ∈ as := by
  match as with
  | [] => exact Iff.rfl
  | [a] => exact Iff.rfl
  | a :: b :: as =>
    have h1 := @mem_eraseReps x (a :: as)
    have h2 := @mem_eraseReps x (b :: as)
    rw [eraseReps_cons]
    by_cases hab : a = b
    · subst hab
      simp [h1]
    · rw [if_neg (by simpa using hab), List.mem_cons, h2]
      simp
termination_by as.length

theorem eraseReps_pairwise {r q : α → α → Prop} (hne : ∀ {a b}, r a b → a ≠ b → q a b)
    (htrans : ∀ {a b c}, q a b → r b c → q a c) {as : List α} (h : as.Pairwise r) :
    as.eraseReps.Pairwise q := by
  match as, h with
  | [], _ => exact .nil
  | [a], _ => exact List.pairwise_singleton _ a
  | a :: b :: as, h =>
    obtain ⟨ha, hb⟩ := List.pairwise_cons.1 h
    obtain ⟨hba, has⟩ := List.pairwise_cons.1 hb
    rw [eraseReps_cons]
    by_cases hab : a = b
    · rw [if_pos (by simpa using hab)]
      apply eraseReps_pairwise hne htrans
      exact List.pairwise_cons.2 ⟨fun x hx => ha x (by simp [hx]), has⟩
    · rw [if_neg (by simpa using hab)]
      have hlt : q a b := hne (ha b (by simp)) hab
      refine List.pairwise_cons.2 ⟨fun x hx => ?_, eraseReps_pairwise hne htrans hb⟩
      rcases List.mem_cons.1 (mem_eraseReps.1 hx) with rfl | hx
      · exact hlt
      · exact htrans hlt (hba x hx)
termination_by as.length

end Repeats

section Parts

variable {a b c : List String}

theorem not_lt_trans (hab : ¬ b < a) (hbc : ¬ c < b) : ¬ c < a :=
  List.not_lt.2 (List.le_trans (List.not_lt.1 hab) (List.not_lt.1 hbc))

theorem not_lt_total (a b : List String) : ¬ b < a ∨ ¬ a < b :=
  (List.le_total a b).imp List.not_lt.2 List.not_lt.2

theorem lt_of_not_lt (hba : ¬ b < a) (hne : a ≠ b) : a < b := by
  by_cases hab : a < b
  · exact hab
  · exact absurd (List.le_antisymm (List.not_lt.1 hba) (List.not_lt.1 hab)) hne

theorem lt_of_lt_of_not_lt (hab : a < b) (hcb : ¬ c < b) : a < c := by
  by_cases hac : a < c
  · exact hac
  · exact absurd hab (not_lt_trans hcb hac)

end Parts

theorem sorted_pairwise (fs : List (List String)) : (sorted fs).Pairwise (· < ·) := by
  have hsort := @List.pairwise_mergeSort _ (fun a b : List String => !decide (b < a))
    (fun a b c hab hbc => by
      simp only [Bool.not_eq_true', decide_eq_false_iff_not] at hab hbc ⊢
      exact not_lt_trans hab hbc)
    (fun a b => by
      simp only [Bool.or_eq_true, Bool.not_eq_true', decide_eq_false_iff_not]
      exact not_lt_total a b) fs
  simp only [Bool.not_eq_true', decide_eq_false_iff_not] at hsort
  exact eraseReps_pairwise lt_of_not_lt lt_of_lt_of_not_lt hsort

theorem mem_sorted {fs : List (List String)} {f : List String} : f ∈ sorted fs ↔ f ∈ fs := by
  rw [sorted, mem_eraseReps, List.mem_mergeSort]

end Walk

end Stencil
