import Stencil.Proofs.Format.Standard
import Stencil.Proofs.Text.Lowered
import Mathlib.Data.List.Infix

/-!
# Slugs

A slug is read character by character as letters and digits with at most one hyphen
between two of them. Lower case that is lowered again stays as it is, so a slug made of
a slug is the same one.
-/

set_option autoImplicit false

namespace Stencil.Standard

open Text

structure IsSlug (s : List Char) : Prop where
  chars : ∀ c ∈ s, isAlphanumeric c = true ∨ c = '-'
  head : s.head? ≠ some '-'
  last : s.getLast? ≠ some '-'
  apart : ¬ ['-', '-'] <:+: s

inductive Hyphenated : List Char → Prop
  | single {c : Char} : isAlphanumeric c = true → Hyphenated [c]
  | next {c : Char} {s : List Char} : isAlphanumeric c = true → Hyphenated s → Hyphenated (c :: s)
  | hyphen {c : Char} {s : List Char} : isAlphanumeric c = true → Hyphenated s →
      Hyphenated (c :: '-' :: s)

theorem hyphen_not_alphanumeric : isAlphanumeric '-' = false := by decide +kernel

theorem alphanumeric_ne {c : Char} (h : isAlphanumeric c = true) : c ≠ '-' := by
  rintro rfl
  rw [hyphen_not_alphanumeric] at h
  cases h

namespace Hyphenated

variable {s : List Char}

theorem head (h : Hyphenated s) : ∃ c r, s = c :: r ∧ isAlphanumeric c = true := by
  cases h with
  | single hc => exact ⟨_, _, rfl, hc⟩
  | next hc _ => exact ⟨_, _, rfl, hc⟩
  | hyphen hc _ => exact ⟨_, _, rfl, hc⟩

theorem chars (h : Hyphenated s) : ∀ c ∈ s, isAlphanumeric c = true ∨ c = '-' := by
  induction h with
  | single hc => exact List.forall_mem_singleton.2 (.inl hc)
  | next hc _ ih => exact List.forall_mem_cons.2 ⟨.inl hc, ih⟩
  | hyphen hc _ ih =>
    exact List.forall_mem_cons.2 ⟨.inl hc, List.forall_mem_cons.2 ⟨.inr rfl, ih⟩⟩

theorem last (h : Hyphenated s) : s.getLast? ≠ some '-' := by
  induction h with
  | single hc => simpa using alphanumeric_ne hc
  | next hc hs ih =>
    obtain ⟨d, r, rfl, -⟩ := hs.head
    rwa [List.getLast?_cons_cons]
  | hyphen hc hs ih =>
    obtain ⟨d, r, rfl, -⟩ := hs.head
    rwa [List.getLast?_cons_cons, List.getLast?_cons_cons]

theorem apart (h : Hyphenated s) : ¬ ['-', '-'] <:+: s := by
  induction h with
  | single hc =>
    intro hin
    have hle := hin.length_le
    simp at hle
  | next hc hs ih =>
    rw [List.infix_cons_iff]
    rintro (hpre | hin)
    · exact alphanumeric_ne hc (List.cons_prefix_cons.1 hpre).1.symm
    · exact ih hin
  | hyphen hc hs ih =>
    obtain ⟨d, r, rfl, hd⟩ := hs.head
    rw [List.infix_cons_iff, List.infix_cons_iff]
    rintro (hpre | hpre | hin)
    · exact alphanumeric_ne hc (List.cons_prefix_cons.1 hpre).1.symm
    · -- the second hyphen would be the character behind the first
      have hrest := (List.cons_prefix_cons.1 hpre).2
      exact alphanumeric_ne hd (List.cons_prefix_cons.1 hrest).1.symm
    · exact ih hin

theorem isSlug (h : Hyphenated s) : IsSlug s where
  chars := h.chars
  head := by
    obtain ⟨c, r, rfl, hc⟩ := h.head
    simpa using alphanumeric_ne hc
  last := h.last
  apart := h.apart

/-- What is hyphenated already is read as it stands, behind a hyphen that is pending. -/
theorem slugFrom_eq (h : Hyphenated s) (started pending : Bool) :
    slugFrom started pending s = (if started && pending then ['-'] else []) ++ s := by
  have hhyphen : ∀ r, slugFrom true false ('-' :: r) = slugFrom true true r := by
    intro r
    rw [slugFrom, if_neg (by rw [hyphen_not_alphanumeric]; decide)]
  induction h generalizing started pending with
  | single hc =>
    rw [slugFrom, if_pos hc, slugFrom]
    split <;> rfl
  | next hc _ ih =>
    rw [slugFrom, if_pos hc, ih true false]
    split <;> rfl
  | hyphen hc _ ih =>
    rw [slugFrom, if_pos hc, hhyphen, ih true true]
    split <;> rfl

end Hyphenated

/-- Behind a letter or digit the rest of a slug goes on with what can follow one. -/
theorem hyphenated_behind {c : Char} (hc : isAlphanumeric c = true) (pending : Bool)
    (s : List Char) : Hyphenated (c :: slugFrom true pending s) := by
  induction s generalizing c pending with
  | nil => exact .single hc
  | cons d s ih =>
    by_cases hd : isAlphanumeric d = true
    · rw [slugFrom, if_pos hd]
      cases pending with
      | false => exact .next hc (ih hd false)
      | true => exact .hyphen hc (ih hd false)
    · rw [slugFrom, if_neg hd]
      exact ih hc true

theorem slugFrom_hyphenated (pending : Bool) (s : List Char) :
    slugFrom false pending s = [] ∨ Hyphenated (slugFrom false pending s) := by
  induction s generalizing pending with
  | nil => exact .inl rfl
  | cons d s ih =>
    by_cases hd : isAlphanumeric d = true
    · rw [slugFrom, if_pos hd]
      exact .inr (hyphenated_behind hd false s)
    · rw [slugFrom, if_neg hd]
      exact ih true

theorem mem_slugFrom {started pending : Bool} {s : List Char} {c : Char}
    (h : c ∈ slugFrom started pending s) : c = '-' ∨ c ∈ s := by
  induction s generalizing started pending with
  | nil => cases h
  | cons d s ih =>
    rw [slugFrom] at h
    split at h
    · rcases List.mem_append.1 h with h | h
      · have hhere : c = '-' ∨ c = d := by
          split at h
          · simpa using h
          · exact .inr (List.mem_singleton.1 h)
        refine hhere.imp_right ?_
        rintro rfl
        exact List.mem_cons_self
      · exact (ih h).imp_right (List.mem_cons_of_mem d)
    · exact (ih h).imp_right (List.mem_cons_of_mem d)

theorem slug_lowered {s : List Char} {c : Char} (h : c ∈ slug s) : lowerChar c = [c] := by
  rcases mem_slugFrom h with rfl | h
  · decide +kernel
  · obtain ⟨d, -, hc⟩ := List.mem_flatMap.1 h
    exact lowerChar_lowered hc

theorem slug_isSlug (s : List Char) : IsSlug (slug s) := by
  rcases slugFrom_hyphenated false (s.flatMap lowerChar) with h | h
  · rw [slug, h]
    exact ⟨nofun, nofun, nofun, fun hin => by simpa using hin.length_le⟩
  · exact h.isSlug

theorem slug_slug (s : List Char) : slug (slug s) = slug s := by
  have hlower : (slug s).flatMap lowerChar = slug s := by
    have heach : (slug s).flatMap lowerChar = (slug s).flatMap fun c => [c] :=
      List.flatMap_congr fun c hc => slug_lowered hc
    rw [heach, List.flatMap_singleton']
  rw [slug, hlower]
  rcases slugFrom_hyphenated false (s.flatMap lowerChar) with h | h
  · rw [slug, h]
    rfl
  · exact h.slugFrom_eq false false

theorem get?_slug : formatters.get? "slug" = some (.function (onText slug)) := by rfl

/-- Every value but a missing one is given a slug as its text, and that text is given
itself. -/
theorem slugs_stable (v : Value) (hv : v.isNull = false) (args more : List Value) :
    ∃ s : String, formatters.apply "slug" v args = .string s ∧ IsSlug s.toList ∧
      formatters.apply "slug" (.string s) more = .string s := by
  have happly : ∀ (w : Value) (as : List Value), formatters.apply "slug" w as = onText slug w as := by
    intro w as
    rw [Formatters.apply, get?_slug]
  refine ⟨String.ofList (slug v.display.toList), ?_, ?_, ?_⟩
  · rw [happly, onText_eq, hv]
    rfl
  · rw [String.toList_ofList]
    exact slug_isSlug _
  · rw [happly]
    show Value.string (String.ofList (slug (String.ofList (slug _)).toList)) = _
    rw [String.toList_ofList, slug_slug]

/-- A capital letter that becomes two characters, the second of them no letter. -/
theorem slugs_stable_dotted :
    let v := Value.array [.string "İst", .int (-5), .null, .string " ÀÉ_"]
    slug v.display.toList = "i-st-5-àé".toList ∧ v.isNull = false ∧
      ∃ s : String, formatters.apply "slug" v [] = .string s ∧ IsSlug s.toList ∧
        formatters.apply "slug" (.string s) [.int 1] = .string s := by
  intro v
  exact ⟨by decide +kernel, rfl, slugs_stable v rfl [] [.int 1]⟩

end Stencil.Standard
