import Stencil.Proofs.Key.Place
import Stencil.Proofs.Lookup.Wrapped

/-!
# Keys in pieces

A text is cut only where a scan stands as it does at the start of a text. So what is
behind a cut is scanned as a text of its own, a piece holds nothing that it could be cut
at once more, and a scan that ends at the first cut sees the same ones as a scan to the
end. A key without a cut has no formatters, so it can be resolved as it stands.
-/

set_option autoImplicit false

namespace Stencil

namespace Key

theorem Place.top_iff {p : Place} : p.top = true ↔ p = {} := by
  obtain ⟨quote, escaped, depth⟩ := p
  simp [Place.top, and_assoc]

theorem cutFrom_joins (d : Char) (p : Place) (s : List Char) :
    (cutFrom d p s).1 ++ (cutFrom d p s).2.flatMap (d :: ·) = s := by
  induction s generalizing p with
  | nil => rfl
  | cons c s ih =>
    by_cases h : (p.top && c == d) = true
    · obtain rfl : c = d := by simpa using (Bool.and_eq_true_iff.1 h).2
      rw [cutFrom, if_pos h]
      simp [ih p]
    · simp [cutFrom, h, ih (p.step c)]

/-- No piece has a character left to be cut at. The first one is scanned from where the
cutting started, the others from the start of a text. -/
theorem cutFrom_unmet (d : Char) (p : Place) (s : List Char) :
    meets d p (cutFrom d p s).1 = false ∧ ∀ w ∈ (cutFrom d p s).2, meets d {} w = false := by
  induction s generalizing p with
  | nil => exact ⟨rfl, nofun⟩
  | cons c s ih =>
    by_cases h : (p.top && c == d) = true
    · have hstart : p = {} := Place.top_iff.1 (Bool.and_eq_true_iff.1 h).1
      obtain ⟨hfirst, hothers⟩ := ih p
      have hcut : cutFrom d p (c :: s) = ([], (cutFrom d p s).1 :: (cutFrom d p s).2) := by
        rw [cutFrom, if_pos h]
      rw [hcut, List.forall_mem_cons]
      exact ⟨rfl, by rwa [hstart] at hfirst ⊢, hothers⟩
    · obtain ⟨hfirst, hothers⟩ := ih (p.step c)
      have hkept : cutFrom d p (c :: s) =
          (c :: (cutFrom d (p.step c) s).1, (cutFrom d (p.step c) s).2) := by
        rw [cutFrom, if_neg h]
      rw [hkept, meets, hfirst, Bool.or_false]
      exact ⟨eq_false_of_ne_true h, hothers⟩

/-- There is a second piece exactly if the scan meets something. -/
theorem meets_eq_cut (d : Char) (p : Place) (s : List Char) :
    meets d p s = !(cutFrom d p s).2.isEmpty := by
  induction s generalizing p with
  | nil => rfl
  | cons c s ih =>
    by_cases h : (p.top && c == d) = true
    · simp [meets, cutFrom, h]
    · rw [meets, eq_false_of_ne_true h, Bool.false_or, ih (p.step c), cutFrom, if_neg h]

theorem intercalate_split (d : Char) (s : List Char) : [d].intercalate (split d s) = s := by
  have hjoin : ∀ (w : List Char) (ws : List (List Char)),
      [d].intercalate (w :: ws) = w ++ ws.flatMap (d :: ·) := by
    intro w ws
    induction ws generalizing w with
    | nil => simp [List.intercalate]
    | cons v ws ih => rw [List.intercalate_cons_cons, ih]; simp
  exact (hjoin _ _).trans (cutFrom_joins d {} s)

theorem split_piece {d : Char} {s w : List Char} (h : w ∈ split d s) : split d w = [w] := by
  obtain ⟨hfirst, hothers⟩ := cutFrom_unmet d {} s
  have hunmet : meets d {} w = false := by
    rcases List.mem_cons.1 h with rfl | h
    · exact hfirst
    · exact hothers w h
  rw [split, cutFrom_of_meets hunmet]

theorem hasPipeline_iff {key : List Char} :
    hasPipeline key = true ↔ 2 ≤ (split '|' key).length := by
  rw [hasPipeline, meets_eq_cut, split, List.length_cons]
  cases (cutFrom '|' {} key).2 <;> simp

end Key

open Key

variable {σ : Type}

/-- Cutting at bars and at commas is lossless and final: the pieces joined are the text,
and none of them is cut again. A key has a pipeline exactly if bars cut it. So a trimmed
key may be resolved as it stands where it has none: the result, what the frame remembers
and what the host is left with are those of taking the key apart. -/
theorem Scope.lookup_in_pieces (env : Env σ) (scope : Scope) :
    (∀ d ∈ ['|', ','], ∀ s : List Char, [d].intercalate (split d s) = s ∧
      ∀ w ∈ split d s, split d w = [w]) ∧
    (∀ s : List Char, hasPipeline s = true ↔ 2 ≤ (split '|' s).length) ∧
    ∀ key : List Char, Text.trim key = key → scope.lookup env key = (do
      let found ← scope.resolve env (parse key).field
      env.host.run env.formatters (parse key).steps (found.getD .null)) :=
  ⟨fun d _ s => ⟨intercalate_split d s, fun _ h => split_piece h⟩, fun _ => hasPipeline_iff,
    fun _ h => scope.lookup_eq env h⟩

/-- Parentheses that close nothing and a quote that is not closed hide no bar before
them. -/
theorem Scope.lookup_in_pieces_unclosed :
    let key := "a)|f('b|\\'|', (c|d))|'e|".toList
    let env : Env Unit := ⟨Host.plain, Standard.formatters⟩
    let scope : Scope := ⟨.object [("a)", .int 1)], []⟩
    split '|' key = ["a)".toList, "f('b|\\'|', (c|d))".toList, "'e|".toList] ∧
      (['|'].intercalate (split '|' key) = key ∧ ∀ w ∈ split '|' key, split '|' w = [w]) ∧
      Text.trim key = key ∧ scope.lookup env key = (do
        let found ← scope.resolve env (parse key).field
        env.host.run env.formatters (parse key).steps (found.getD .null)) := by
  intro key env scope
  have hall := lookup_in_pieces env scope
  exact ⟨by decide, hall.1 '|' (by simp) key, by decide, hall.2.2 key (by decide)⟩

end Stencil
