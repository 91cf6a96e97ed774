import Stencil.Proofs.Text.Escape

/-!
# Escaping undone

No entity begins with another one, so what is decoded at an ampersand is the entity that
was written there, and it is not looked at again. Unescaping therefore takes back one
layer of escaping, of every text, and escaping restores it on exactly the texts that
escaping can give.
-/

set_option autoImplicit false

namespace Stencil.Text

structure Escaped (t : List Char) : Prop where
  free : ∀ c ∈ markup, c ∉ t
  ampersand : ∀ before behind, t = before ++ '&' :: behind → EntityHere ('&' :: behind)

theorem Escaped.behind {a b : List Char} (h : Escaped (a ++ b)) : Escaped b := by
  refine ⟨fun c hc hb => h.free c hc (List.mem_append_right a hb), fun before behind hb => ?_⟩
  exact h.ampersand (a ++ before) behind (by rw [hb, List.append_assoc])

theorem escaped_escape (s : List Char) : Escaped (escape s) :=
  ⟨fun _ hc => escape_free hc s, fun _ _ h => escape_ampersand h⟩

/-- The table read forwards, and no entity the beginning of another. -/
theorem entities_apart : ∀ e ∈ entities, entityOf e.1 = some e.2 ∧
    ∀ f ∈ entities, f.2 <+: e.2 → f = e := by decide

theorem entityAt_entity {e : Char × List Char} (he : e ∈ entities) (r : List Char) :
    entityAt (e.2 ++ r) = some e := by
  have hsome : (entityAt (e.2 ++ r)).isSome := by
    rw [entityAt, List.find?_isSome]
    exact ⟨e, he, List.isPrefixOf_iff_prefix.2 (List.prefix_append _ _)⟩
  obtain ⟨f, hf⟩ := Option.isSome_iff_exists.1 hsome
  have hmem : f ∈ entities := List.mem_of_find?_eq_some hf
  have hfound := List.find?_some hf
  have hpre : f.2 <+: e.2 ++ r := List.isPrefixOf_iff_prefix.1 hfound
  rw [hf]
  rcases List.prefix_or_prefix_of_prefix hpre (List.prefix_append e.2 r) with h | h
  · rw [(entities_apart e he).2 f hmem h]
  · rw [(entities_apart f hmem).2 e he h]

theorem entityAt_plain {c : Char} (hc : c ≠ '&') (r : List Char) : entityAt (c :: r) = none := by
  rw [entityAt, List.find?_eq_none]
  intro e he hpre
  obtain ⟨w, hw, -⟩ := entity_cons he
  rw [hw, List.isPrefixOf_iff_prefix, List.cons_prefix_cons] at hpre
  exact hc hpre.1.symm

theorem unescapeFrom_skip (w r : List Char) :
    unescapeFrom w.length (w ++ r) = unescapeFrom 0 r := by
  induction w with
  | nil => rfl
  | cons c w ih => exact ih

theorem unescape_entity {e : Char × List Char} (he : e ∈ entities) (r : List Char) :
    unescape (e.2 ++ r) = e.1 :: unescape r := by
  have hat := entityAt_entity he r
  obtain ⟨w, hw, -⟩ := entity_cons he
  rw [hw, List.cons_append] at hat
  rw [unescape, hw, List.cons_append, unescapeFrom, hat]
  simp only [hw, List.length_cons, Nat.add_sub_cancel, unescapeFrom_skip]
  rfl

theorem unescape_plain {c : Char} (hc : c ≠ '&') (r : List Char) :
    unescape (c :: r) = c :: unescape r := by
  rw [unescape, unescapeFrom, entityAt_plain hc]
  rfl

theorem unescape_escape (s : List Char) : unescape (escape s) = s := by
  induction s with
  | nil => rfl
  | cons c s ih =>
    rw [escape]
    cases hc : entityOf c with
    | some entity => rw [Option.getD_some, unescape_entity (entityOf_mem hc), ih]
    | none =>
      have hne : c ≠ '&' := by
        rintro rfl
        exact absurd hc (by decide)
      rw [Option.getD_none, List.singleton_append, unescape_plain hne, ih]

/-- What is neither markup nor an ampersand is written as it is. -/
theorem entityOf_plain {c : Char} (hc : c ≠ '&') (hm : c ∉ markup) : entityOf c = none := by
  have hall : ∀ e ∈ entities, e.1 = '&' ∨ e.1 ∈ markup := by decide
  cases he : entityOf c with
  | none => rfl
  | some entity => exact ((hall _ (entityOf_mem he)).elim hc hm).elim

theorem escape_unescape {t : List Char} (ht : Escaped t) : escape (unescape t) = t := by
  cases t with
  | nil => rfl
  | cons c r =>
    by_cases hc : c = '&'
    · subst hc
      obtain ⟨e, he, rest, hrest⟩ := ht.ampersand [] r rfl
      have hlt : rest.length < r.length + 1 := by
        obtain ⟨w, hw, -⟩ := entity_cons he
        rw [← List.length_cons, ← hrest, hw, List.length_append, List.length_cons]
        omega
      rw [← hrest] at ht ⊢
      rw [unescape_entity he, escape, (entities_apart e he).1, Option.getD_some,
        escape_unescape ht.behind]
    · have hm : c ∉ markup := fun hm => ht.free c hm List.mem_cons_self
      have hr : Escaped ([c] ++ r) := ht
      rw [unescape_plain hc, escape, entityOf_plain hc hm, Option.getD_none,
        escape_unescape hr.behind]
      rfl
termination_by t.length

/-- Unescaping gives back what was escaped. What escaping gives is free of markup and has
ampersands only where entities begin, and all such text is given back by unescaping it
and escaping it again. -/
theorem unescape_inverts_escape :
    (∀ s, unescapeHtml (escapeHtml s) = s) ∧
      (∀ s, Escaped (escapeHtml s).toList) ∧
      ∀ t : String, Escaped t.toList → escapeHtml (unescapeHtml t) = t := by
  refine ⟨fun s => ?_, fun s => ?_, fun t ht => ?_⟩
  · rw [unescapeHtml, escapeHtml, String.toList_ofList, unescape_escape, String.ofList_toList]
  · rw [escapeHtml, String.toList_ofList]
    exact escaped_escape s.toList
  · rw [escapeHtml, unescapeHtml, String.toList_ofList, escape_unescape ht, String.ofList_toList]

/-- Of a text escaped twice one layer is taken back, and put on again. -/
theorem unescape_inverts_escape_twice :
    Escaped "&amp;lt;".toList ∧ unescapeHtml "&amp;lt;" = "&lt;" ∧
      escapeHtml (unescapeHtml "&amp;lt;") = "&amp;lt;" := by
  have hwritten : escapeHtml "&lt;" = "&amp;lt;" := by decide +kernel
  have hesc : Escaped "&amp;lt;".toList := by
    rw [← hwritten]
    exact unescape_inverts_escape.2.1 "&lt;"
  exact ⟨hesc, by decide +kernel, unescape_inverts_escape.2.2 _ hesc⟩

end Stencil.Text
