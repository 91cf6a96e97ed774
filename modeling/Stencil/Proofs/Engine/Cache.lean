import Stencil.Render.Library
import Mathlib.Data.List.Dedup
import Mathlib.Data.List.Nodup

/-!
# What a cache holds

A cache holds each source and delimiters it was asked for once, under one number.
Fetching keeps what it holds; only clearing drops it, and numbers are never given
twice.
-/

set_option autoImplicit false

namespace Stencil

abbrev Asked : Type := String × Delimiters

def Library.recorded : Library (List Asked) where
  parse d source asked := (.parse d source, (source, d) :: asked)
  faithful _ _ _ := rfl

namespace Cache

def keys (c : Cache) : List Asked := c.entries.map Prod.fst

def find? (c : Cache) (key : Asked) : Option Parsed := c.entries.lookup key

def Kept (P : Cache → Prop) : Prop := ∀ d source c, P c → P (c.fetch d source).2

theorem fetch_hit {c : Cache} {d : Delimiters} {source : String} {p : Parsed}
    (h : c.find? (source, d) = some p) : c.fetch d source = (p, c) := by
  have hl : c.entries.lookup (source, d) = some p := h
  simp only [fetch, hl]

theorem fetch_miss {c : Cache} {d : Delimiters} {source : String}
    (h : c.find? (source, d) = none) :
    (c.fetch d source).1 = ⟨c.next, .parse d source⟩ ∧
      (c.fetch d source).2.entries = ((source, d), (c.fetch d source).1) :: c.entries ∧
      (c.fetch d source).2.next = c.next + 1 := by
  have hl : c.entries.lookup (source, d) = none := h
  unfold fetch
  split
  · next he => rw [hl] at he; cases he
  · exact ⟨rfl, rfl, rfl⟩

theorem find?_eq_none {c : Cache} {key : Asked} : c.find? key = none ↔ key ∉ c.keys := by
  simp only [find?, List.lookup_eq_none_iff, keys, List.mem_map, not_exists, not_and]
  constructor
  · rintro h e he rfl
    simpa using h e he
  · intro h e he
    have := h e he
    simpa using Ne.symm this

theorem find?_mem {c : Cache} {key : Asked} {p : Parsed} (h : c.find? key = some p) :
    (key, p) ∈ c.entries := by
  obtain ⟨as, bs, he, -⟩ := List.lookup_eq_some_iff.1 h
  simp [he]

theorem find?_fetch (d : Delimiters) (source : String) (c : Cache) :
    (c.fetch d source).2.find? (source, d) = some (c.fetch d source).1 := by
  cases h : c.find? (source, d) with
  | some p => rw [fetch_hit h]; exact h
  | none => simp [find?, (fetch_miss h).2.1]

theorem find?_kept (key : Asked) (p : Parsed) : Kept fun c => c.find? key = some p := by
  intro d source c hc
  cases h : c.find? (source, d) with
  | some q => rw [fetch_hit h]; exact hc
  | none =>
    have hne : key ≠ (source, d) := by
      rintro rfl
      rw [h] at hc
      cases hc
    have hb : (key == (source, d)) = false := by simpa using hne
    simp only [find?, (fetch_miss h).2.1, List.lookup_cons, hb]
    exact hc

structure Holds (c : Cache) (asked : List Asked) : Prop where
  nodup : c.keys.Nodup
  mem : ∀ key, key ∈ c.keys ↔ key ∈ asked

theorem Holds.nil {c : Cache} (h : c.entries = []) : c.Holds [] := by
  have hkeys : c.keys = [] := by rw [keys, h, List.map_nil]
  exact ⟨by rw [hkeys]; exact .nil, fun key => by rw [hkeys]⟩

theorem Holds.fetch {c : Cache} {asked : List Asked} (h : c.Holds asked) (d : Delimiters)
    (source : String) : (c.fetch d source).2.Holds ((source, d) :: asked) := by
  cases hf : c.find? (source, d) with
  | some p =>
    rw [fetch_hit hf]
    have hin : (source, d) ∈ c.keys := by
      by_contra hn
      rw [find?_eq_none.2 hn] at hf
      cases hf
    refine ⟨h.nodup, fun key => ?_⟩
    rw [List.mem_cons, h.mem]
    exact ⟨.inr, fun hk => hk.elim (fun he => he ▸ (h.mem _).1 hin) id⟩
  | none =>
    have hkeys : (c.fetch d source).2.keys = (source, d) :: c.keys := by
      simp [keys, (fetch_miss hf).2.1]
    refine ⟨?_, fun key => ?_⟩
    · rw [hkeys]
      exact List.nodup_cons.2 ⟨find?_eq_none.1 hf, h.nodup⟩
    · rw [hkeys, List.mem_cons, List.mem_cons, h.mem]

theorem Holds.size {c : Cache} {asked : List Asked} (h : c.Holds asked) :
    c.size = asked.dedup.length := by
  have hp : c.keys.Perm asked.dedup := by
    rw [List.perm_ext_iff_of_nodup h.nodup (List.nodup_dedup _)]
    intro key
    rw [h.mem, List.mem_dedup]
  rw [← hp.length_eq, keys, List.length_map, Cache.size]

structure Numbered (low : Nat) (c : Cache) : Prop where
  low_le : low ≤ c.next
  bounds : ∀ e ∈ c.entries, low ≤ e.2.number ∧ e.2.number < c.next
  distinct : (c.entries.map fun e => e.2.number).Nodup

theorem Numbered.kept (low : Nat) : Kept (Numbered low) := by
  intro d source c hc
  cases h : c.find? (source, d) with
  | some q => rw [fetch_hit h]; exact hc
  | none =>
    obtain ⟨hp, he, hn⟩ := fetch_miss h
    rw [hp] at he
    refine ⟨by rw [hn]; exact Nat.le_succ_of_le hc.low_le, ?_, ?_⟩
    · rw [he, hn]
      intro e hm
      rcases List.mem_cons.1 hm with rfl | hm
      · exact ⟨hc.low_le, Nat.lt_succ_self _⟩
      · exact ⟨(hc.bounds e hm).1, Nat.lt_succ_of_lt (hc.bounds e hm).2⟩
    · rw [he, List.map_cons, List.nodup_cons]
      refine ⟨fun hm => ?_, hc.distinct⟩
      obtain ⟨e, hin, hnum⟩ := List.mem_map.1 hm
      exact absurd hnum (Nat.ne_of_lt (hc.bounds e hin).2)

theorem Numbered.kept_above (n : Nat) : Kept fun c => c.Numbered 0 ∧ n < c.next := by
  intro d source c hc
  refine ⟨Numbered.kept 0 d source c hc.1, Nat.lt_of_lt_of_le hc.2 ?_⟩
  cases h : c.find? (source, d) with
  | some q => exact Nat.le_of_eq (by rw [fetch_hit h])
  | none => exact Nat.le_of_lt (by rw [(fetch_miss h).2.2]; exact Nat.lt_succ_self _)

theorem Numbered.clear {n : Nat} {c : Cache} (h : n < c.next) : c.clear.Numbered (n + 1) :=
  ⟨h, nofun, .nil⟩

theorem Numbered.eq_of_number {low : Nat} {c : Cache} (hc : c.Numbered low) {e f : Asked × Parsed}
    (he : e ∈ c.entries) (hf : f ∈ c.entries) (h : e.2.number = f.2.number) : e = f :=
  List.inj_on_of_nodup_map hc.distinct he hf h

end Cache

end Stencil
