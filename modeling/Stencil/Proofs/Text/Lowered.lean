import Stencil.Text.Case

/-!
# Lower case, once

A table of case is done after one use if it maps no character to one that it changes
again. Whether that is so is told run by run: what one run maps to lies before or behind
each other run, or between its characters. It is so of the table of lower case.
-/

set_option autoImplicit false

namespace Stencil.Text

variable {runs : List CaseRun} {expansions : List (Nat × List Nat)}

namespace CaseRun

variable {r q : CaseRun} {n : Nat}

def image (r : CaseRun) (n : Nat) : Nat := (n + r.offset).toNat

def lands (r : CaseRun) : Bool :=
  0 ≤ r.first + r.offset && (r.image r.last < 0xD800 ||
    (0xDFFF < r.image r.first && r.image r.last < 0x110000))

def avoids (r : CaseRun) (n : Nat) : Bool := r.image r.last < n || n < r.image r.first

/-- Whether `q` has none of the characters from `low` to `high`, or none of every other one
of them if these are `sparse`: then they may lie between those of `q`. -/
def clear (low high : Nat) (sparse : Bool) (q : CaseRun) : Bool :=
  Nat.blt high q.first || Nat.blt q.last low ||
    (sparse && q.step == 2 && (low + q.first) % 2 == 1)

def misses (r : CaseRun) : CaseRun → Bool :=
  clear (r.image r.first) (r.image r.last) (r.step == 2 || r.first == r.last)

theorem has_iff : r.has n = true ↔ r.first ≤ n ∧ n ≤ r.last ∧ (n - r.first) % r.step = 0 := by
  simp [has, and_assoc]

/-- The characters of a run keep their order and their distances. -/
theorem image_first (hl : r.lands = true) (hn : r.first ≤ n) :
    r.image n = r.image r.first + (n - r.first) := by
  simp only [lands, Bool.and_eq_true, decide_eq_true_eq] at hl
  simp only [image]
  omega

theorem toNat_image (hl : r.lands = true) (hn : r.has n = true) :
    (Char.ofNat (r.image n)).toNat = r.image n := by
  obtain ⟨hfirst, hlast, -⟩ := has_iff.1 hn
  have himage := image_first hl hfirst
  have hlimit := image_first hl (Nat.le_trans hfirst hlast)
  simp only [lands, Bool.and_eq_true, Bool.or_eq_true, decide_eq_true_eq] at hl
  have hvalid : (r.image n).isValidChar := by
    unfold Nat.isValidChar
    omega
  rw [Char.ofNat, dif_pos hvalid]
  rfl

theorem image_avoids (hl : r.lands = true) (hn : r.has n = true) :
    r.avoids (r.image n) = false := by
  obtain ⟨hfirst, hlast, -⟩ := has_iff.1 hn
  have himage := image_first hl hfirst
  have hlimit := image_first hl (Nat.le_trans hfirst hlast)
  simp only [avoids, Bool.or_eq_false_iff, decide_eq_false_iff_not]
  omega

theorem image_missed (hl : r.lands = true) (hq : r.misses q = true) (hn : r.has n = true) :
    q.has (r.image n) = false := by
  obtain ⟨hfirst, hlast, hstep⟩ := has_iff.1 hn
  have himage := image_first hl hfirst
  have hlimit := image_first hl (Nat.le_trans hfirst hlast)
  rw [← Bool.not_eq_true, has_iff]
  rintro ⟨hqfirst, hqlast, hqstep⟩
  simp only [misses, clear, Nat.blt_eq, Bool.or_eq_true, Bool.and_eq_true, beq_iff_eq] at hq
  obtain (hbefore | hbehind) | ⟨⟨hsame, htwo⟩, hodd⟩ := hq
  · omega
  · omega
  · rw [htwo] at hqstep
    rcases hsame with hsame | hsame
    · rw [hsame] at hstep
      omega
    · omega

end CaseRun

def leaves (runs : List CaseRun) (expansions : List (Nat × List Nat)) (n : Nat) : Bool :=
  (expansions.lookup n).isNone && !runs.any (·.has n)

def settles (runs : List CaseRun) (expansions : List (Nat × List Nat)) : Bool :=
  (runs.all fun r => r.lands && runs.all r.misses && expansions.all fun e => r.avoids e.1) &&
    expansions.all fun e => e.2.all fun n => leaves runs expansions (Char.ofNat n).toNat

theorem mapCase_of_leaves {c : Char} (h : leaves runs expansions c.toNat = true) :
    mapCase runs expansions c = [c] := by
  simp only [leaves, Bool.and_eq_true, Option.isNone_iff_eq_none, Bool.not_eq_true',
    List.any_eq_false] at h
  have hrun : runs.find? (·.has c.toNat) = none := List.find?_eq_none.2 h.2
  rw [mapCase, h.1]
  dsimp only
  rw [hrun]

/-- What a character is mapped to: characters that the table lists for it, another one a
run away, or the character itself. -/
theorem mem_mapCase {c d : Char} (h : d ∈ mapCase runs expansions c) :
    (∃ e ∈ expansions, ∃ n ∈ e.2, d = Char.ofNat n) ∨
    (∃ r ∈ runs, r.has c.toNat = true ∧ d = Char.ofNat (r.image c.toNat)) ∨
    d = c ∧ mapCase runs expansions c = [c] := by
  cases hlook : expansions.lookup c.toNat with
  | some ns =>
    rw [mapCase, hlook] at h
    obtain ⟨n, hn, rfl⟩ := List.mem_map.1 h
    obtain ⟨before, behind, he, -⟩ := List.lookup_eq_some_iff.1 hlook
    exact .inl ⟨(c.toNat, ns), by simp [he], n, hn, rfl⟩
  | none =>
    cases hfind : runs.find? (·.has c.toNat) with
    | some r =>
      have hmap : mapCase runs expansions c = [Char.ofNat (r.image c.toNat)] := by
        simp only [mapCase, hlook, hfind, CaseRun.image]
      rw [hmap] at h
      have hhas : r.has c.toNat = true := by simpa using List.find?_some hfind
      exact .inr (.inl ⟨r, List.mem_of_find?_eq_some hfind, hhas, List.mem_singleton.1 h⟩)
    | none =>
      have hmap : mapCase runs expansions c = [c] := by simp only [mapCase, hlook, hfind]
      rw [hmap] at h
      exact .inr (.inr ⟨List.mem_singleton.1 h, hmap⟩)

theorem mapCase_settled (h : settles runs expansions = true) {c d : Char}
    (hd : d ∈ mapCase runs expansions c) : mapCase runs expansions d = [d] := by
  simp only [settles, Bool.and_eq_true, List.all_eq_true] at h
  obtain ⟨hruns, hexpansions⟩ := h
  obtain ⟨e, he, n, hn, rfl⟩ | ⟨r, hr, hhas, rfl⟩ | ⟨rfl, hkept⟩ := mem_mapCase hd
  · exact mapCase_of_leaves (hexpansions e he n hn)
  · obtain ⟨⟨hlands, hmisses⟩, havoids⟩ := hruns r hr
    have hlist : expansions.lookup (r.image c.toNat) = none := by
      rw [List.lookup_eq_none_iff]
      intro e he
      rw [bne_iff_ne]
      intro heq
      have hfalse := CaseRun.image_avoids hlands hhas
      rw [heq, havoids e he] at hfalse
      cases hfalse
    refine mapCase_of_leaves ?_
    simp only [leaves, r.toNat_image hlands hhas, hlist, Option.isNone_none, Bool.true_and,
      Bool.not_eq_true', List.any_eq_false, Bool.not_eq_true]
    exact fun q hq => CaseRun.image_missed hlands (hmisses q hq) hhas
  · exact hkept

theorem lower_settles : settles lowerRuns lowerExpansions = true := by decide +kernel

theorem lowerChar_lowered {c d : Char} (h : d ∈ lowerChar c) : lowerChar d = [d] :=
  mapCase_settled lower_settles h

end Stencil.Text
