import Stencil.Text.Entity
import Mathlib.Data.List.Basic

/-!
# Escaped text

Escaped text has no character left that could open a tag or end an attribute, and an
ampersand in it is the beginning of an entity.
-/

set_option autoImplicit false

namespace Stencil.Text

/-- The characters that escaped text is free of. The ampersand is escaped too, but every
entity starts with one. -/
def markup : List Char := ['<', '>', '"', '\'', '/', '`', '=']

def EntityHere (s : List Char) : Prop := ∃ e ∈ entities, e.2 <+: s

theorem entityOf_mem {c : Char} {entity : List Char} (h : entityOf c = some entity) :
    (c, entity) ∈ entities := by
  obtain ⟨as, bs, he, -⟩ := List.lookup_eq_some_iff.1 h
  rw [he]
  simp

/-- An entity is an ampersand and characters that are never escaped. -/
theorem entity_shape : ∀ e ∈ entities, e.2.head? = some '&' ∧ '&' ∉ e.2.tail ∧
    ∀ c ∈ markup, c ∉ e.2 := by simp [entities, markup]

theorem entity_cons {e : Char × List Char} (he : e ∈ entities) :
    ∃ r, e.2 = '&' :: r ∧ '&' ∉ r := by
  obtain ⟨hhead, htail, -⟩ := entity_shape e he
  obtain ⟨r, hr⟩ := List.head?_eq_some_iff.1 hhead
  rw [hr] at htail
  exact ⟨r, hr, htail⟩

theorem markup_escaped : ∀ c ∈ markup, (entityOf c).isSome := by
  simp [markup, entityOf, entities, List.lookup_cons]

theorem escape_free {c : Char} (hc : c ∈ markup) (s : List Char) : c ∉ escape s := by
  induction s with
  | nil => exact List.not_mem_nil
  | cons a s ih =>
    rw [escape, List.mem_append, not_or]
    refine ⟨?_, ih⟩
    cases ha : entityOf a with
    | some entity => exact (entity_shape _ (entityOf_mem ha)).2.2 c hc
    | none =>
      intro hmem
      obtain rfl : c = a := by simpa using hmem
      have hesc := markup_escaped c hc
      rw [ha] at hesc
      cases hesc

/-- An ampersand in escaped text begins an entity: of the pieces it is made of, those
with an ampersand are entities and have it in front only. -/
theorem escape_ampersand {s before behind : List Char} (h : escape s = before ++ '&' :: behind) :
    EntityHere ('&' :: behind) := by
  induction s generalizing before with
  | nil => simp [escape] at h
  | cons a s ih =>
    rw [escape] at h
    rcases List.append_eq_append_iff.1 h with ⟨mid, -, hs⟩ | ⟨mid, ha, hmid⟩
    · exact ih hs
    · cases mid with
      | nil => exact ih (hmid.symm.trans (List.nil_append _).symm)
      | cons c mid =>
        obtain ⟨rfl, rfl⟩ : '&' = c ∧ behind = mid ++ escape s := by simpa using hmid
        cases he : entityOf a with
        | none =>
          rw [he, Option.getD_none] at ha
          have hmem : '&' ∈ [a] := by rw [ha]; simp
          obtain rfl : '&' = a := by simpa using hmem
          exact absurd he (by decide)
        | some entity =>
          rw [he, Option.getD_some] at ha
          obtain ⟨r, hr, hfree⟩ := entity_cons (entityOf_mem he)
          change entity = '&' :: r at hr
          rw [hr] at ha
          cases before with
          | nil => exact ⟨_, entityOf_mem he, escape s, by rw [hr, ha]; rfl⟩
          | cons b before =>
            obtain ⟨-, rfl⟩ := List.cons.inj ha
            exact absurd (by simp) hfree

end Stencil.Text
