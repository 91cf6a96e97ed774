import Stencil.Proofs.Template.Tiling

/-!
# Joined text

Joining adjacent text tokens leaves every other token where it is, so the joined
stream splits at each of them. It stays in the order of the source, and it moves
with the text.
-/

set_option autoImplicit false

namespace Stencil

open Text

def Span.Spaced : (a : Nat) → List Span → (b : Nat) → Prop
  | a, [], b => a ≤ b
  | a, s :: ss, b => a ≤ s.start.toNat ∧ s.start < s.stop ∧ Spaced s.stop.toNat ss b

namespace Span

theorem start_le_stop (s : Span) : s.start ≤ s.stop := by
  rw [UInt32.le_iff_toNat_le, stop, clamp_toNat]
  have := s.start.toNat_lt
  omega

theorem moved_stop (k : Nat) (s : Span) : (s.moved k).stop = clamp (s.stop.toNat + k) :=
  ofBounds_stop (Nat.add_le_add_right (UInt32.le_iff_toNat_le.1 s.start_le_stop) k)

namespace Spaced

theorem le {a b : Nat} {ss : List Span} (h : Spaced a ss b) : a ≤ b := by
  induction ss generalizing a with
  | nil => exact h
  | cons s ss ih =>
    have h1 := UInt32.lt_iff_toNat_lt.1 h.2.1
    have h2 := ih h.2.2
    have h3 := h.1
    omega

theorem weaken {a a' b : Nat} {ss : List Span} (h : Spaced a ss b) (ha : a' ≤ a) :
    Spaced a' ss b := by
  cases ss with
  | nil => exact Nat.le_trans ha h
  | cons s ss => exact ⟨Nat.le_trans ha h.1, h.2⟩

theorem append {a b c : Nat} {ss ts : List Span} (h : Spaced a ss b) (k : Spaced b ts c) :
    Spaced a (ss ++ ts) c := by
  induction ss generalizing a with
  | nil => exact k.weaken h
  | cons s ss ih => exact ⟨h.1, h.2.1, ih h.2.2⟩

theorem sublist {a b : Nat} {ss ts : List Span} (hs : ts.Sublist ss) (h : Spaced a ss b) :
    Spaced a ts b := by
  induction hs generalizing a with
  | slnil => exact h
  | cons s _ ih =>
    have h1 := UInt32.lt_iff_toNat_lt.1 h.2.1
    have h2 := h.1
    exact (ih h.2.2).weaken (by omega)
  | cons_cons s _ ih => exact ⟨h.1, h.2.1, ih h.2.2⟩

theorem bounds {a b : Nat} {ss : List Span} (h : Spaced a ss b) {s : Span} (hs : s ∈ ss) :
    a ≤ s.start.toNat ∧ s.start < s.stop ∧ s.stop.toNat ≤ b := by
  induction ss generalizing a with
  | nil => cases hs
  | cons u ss ih =>
    rcases List.mem_cons.1 hs with rfl | hs
    · exact ⟨h.1, h.2.1, h.2.2.le⟩
    · have h1 := UInt32.lt_iff_toNat_lt.1 h.2.1
      have h2 := h.1
      obtain ⟨h3, h4, h5⟩ := ih h.2.2 hs
      exact ⟨by omega, h4, h5⟩

theorem pairwise {a b : Nat} {ss : List Span} (h : Spaced a ss b) :
    ss.Pairwise fun s u => s.stop ≤ u.start := by
  induction ss generalizing a with
  | nil => exact .nil
  | cons s ss ih =>
    exact .cons (fun u hu => UInt32.le_iff_toNat_le.2 (h.2.2.bounds hu).1) (ih h.2.2)

theorem nodup {a b : Nat} {ss : List Span} (h : Spaced a ss b) : ss.Nodup := by
  refine h.pairwise.imp_of_mem fun {s u} hs _ hle he => ?_
  have := UInt32.lt_of_lt_of_le (h.bounds hs).2.1 hle
  rw [he] at this
  exact UInt32.lt_irrefl _ this

end Spaced

theorem Tiles.spaced {a b : Nat} {ss : List Span} (h : Tiles a ss b) (hb : b < 2 ^ 32) :
    Spaced a ss b := by
  have hle : ∀ {a ss}, Tiles a ss b → a ≤ b := by
    intro a ss h
    induction ss generalizing a with
    | nil => exact Nat.le_of_eq h
    | cons s ss ih =>
      have h1 := ih h.2.2
      have h2 := h.1
      omega
  induction ss generalizing a with
  | nil => exact hle h
  | cons s ss ih =>
    obtain ⟨h1, h2, h3⟩ := h
    have h4 := hle h3
    have hs : s.stop.toNat = s.start.toNat + s.length.toNat := by
      rw [Span.stop, clamp_toNat_of_lt (by omega)]
    refine ⟨Nat.le_of_eq h1.symm, UInt32.lt_iff_toNat_lt.2 (by omega), ?_⟩
    rw [hs]
    exact ih h3

end Span

/-- Whatever the delimiters, lexemes stand in the order of the source. -/
theorem Cursor.read_spaced {c : Cursor} (hc : c.pos + byteLength c.rest < 2 ^ 32) :
    Span.Spaced c.pos (c.read.filterMap Lexeme.tile?) (c.pos + byteLength c.rest) := by
  obtain ⟨u, ls, c', tail, hr, hs⟩ := exists_run c
  obtain ⟨h1, h2⟩ := hr.rest
  have hl : c.pos + byteLength c.rest = c'.pos + byteLength c'.rest := by
    rw [h1, h2, byteLength_append, Nat.add_assoc]
  have ht : Span.Spaced c'.pos (tail.filterMap Lexeme.tile?) (c'.pos + byteLength c'.rest) := by
    rw [hl] at hc
    cases hs with
    | done => exact Nat.le_add_right _ _
    | unclosed _ _ _ => exact (Lexeme.ofText_tiles hc).spaced hc
    | blocked _ _ _ => exact Nat.le_add_right _ _
  rw [hr.read, hs.read, List.filterMap_append, hl]
  exact ((hr.tiles hc).spaced (by omega)).append ht

theorem Lexeme.tokens_sublist (ls : List Lexeme) :
    ((tokens ls).map Token.span).Sublist (ls.filterMap tile?) := by
  induction ls with
  | nil => exact .slnil
  | cons l ls ih =>
    cases l with
    | token t => exact ih.cons_cons _
    | problem p => cases p <;> first | exact ih | exact ih.cons _

namespace Token

def Spaced (a : Nat) (ts : List Token) (b : Nat) : Prop := Span.Spaced a (ts.map span) b

theorem read_spaced {c : Cursor} (hc : c.pos + byteLength c.rest < 2 ^ 32) :
    Spaced c.pos (Lexeme.tokens c.read) (c.pos + byteLength c.rest) :=
  (Cursor.read_spaced hc).sublist (Lexeme.tokens_sublist _)

theorem join_start (t u : Token) : (t.join u).span.start = t.span.start := rfl

theorem join_stop {t u : Token} (h : t.span.start ≤ u.span.stop) :
    (t.join u).span.stop = u.span.stop := by
  have hc := UInt32.le_iff_toNat_le.1 h
  have hs := UInt32.toNat_lt u.span.stop
  apply UInt32.toNat_inj.1
  change (Span.clamp (t.span.start.toNat + (u.span.stop - t.span.start).toNat)).toNat = _
  rw [UInt32.toNat_sub_of_le _ _ h, Nat.add_sub_cancel' hc, Span.clamp_toNat_of_lt hs]

theorem isText_join (t u : Token) : (t.join u).isText = t.isText := rfl

theorem squash_cons (t u : Token) (us : List Token) :
    squash (t :: u :: us) =
      if t.isText && u.isText then squash (t.join u :: us) else t :: squash (u :: us) := rfl

theorem Spaced.join {a b : Nat} {t u : Token} {us : List Token} (h : Spaced a (t :: u :: us) b) :
    t.span.start ≤ u.span.stop ∧ Spaced a (t.join u :: us) b := by
  obtain ⟨h1, h2, h3, h4, h5⟩ := h
  have hu : t.span.start < u.span.stop :=
    UInt32.lt_of_lt_of_le h2 (UInt32.le_trans (UInt32.le_iff_toNat_le.2 h3) u.span.start_le_stop)
  have hs := join_stop (UInt32.le_of_lt hu)
  refine ⟨UInt32.le_of_lt hu, h1, ?_, ?_⟩
  · rw [hs]
    exact hu
  · rw [hs]
    exact h5

theorem squash_spaced {a b : Nat} {ts : List Token} (h : Spaced a ts b) :
    Spaced a (squash ts) b := by
  match ts, h with
  | [], h => exact h
  | [t], h => exact h
  | t :: u :: us, h =>
    rw [squash_cons]
    split
    · exact squash_spaced h.join.2
    · have hr : Spaced t.span.stop.toNat (u :: us) b := h.2.2
      exact ⟨h.1, h.2.1, squash_spaced hr⟩
termination_by ts.length

theorem squash_append (ts us : List Token) {t : Token} (h : t.isText = false) :
    squash (ts ++ t :: us) = squash ts ++ t :: squash us := by
  match ts with
  | [] =>
    cases us with
    | nil => rfl
    | cons u us =>
      rw [List.nil_append, squash_cons, if_neg (by simp [h])]
      rfl
  | [x] =>
    have := squash_append [] us h
    simp only [List.nil_append] at this
    rw [List.singleton_append, squash_cons, this]
    simp [h, squash, squashFrom]
  | x :: y :: ts =>
    have h1 := squash_append (x.join y :: ts) us h
    have h2 := squash_append (y :: ts) us h
    rw [List.cons_append, List.cons_append, squash_cons, squash_cons]
    split
    · exact h1
    · rw [← List.cons_append, h2]
      rfl
termination_by ts.length

theorem squash_other (us : List Token) {t : Token} (h : t.isText = false) :
    squash (t :: us) = t :: squash us :=
  squash_append [] us h

/-- A token that is no text stands between what joins before it and what joins behind it. -/
theorem squash_split {ts xs ys : List Token} {t : Token} (h : t.isText = false)
    (hs : squash ts = xs ++ t :: ys) :
    ∃ as bs, ts = as ++ t :: bs ∧ squash as = xs ∧ squash bs = ys := by
  match ts with
  | [] => cases xs <;> cases hs
  | [x] =>
    cases xs with
    | nil =>
      obtain ⟨rfl, rfl⟩ : x = t ∧ [] = ys := by simpa [squash, squashFrom] using hs
      exact ⟨[], [], rfl, rfl, rfl⟩
    | cons y xs => simp [squash, squashFrom] at hs
  | x :: y :: ts =>
    rw [squash_cons] at hs
    split at hs
    · next hxy =>
      obtain ⟨as, bs, he, hx, hy⟩ := squash_split h hs
      cases as with
      | nil =>
        obtain ⟨rfl, -⟩ := List.cons.inj he
        rw [isText_join] at h
        simp [h] at hxy
      | cons a as =>
        obtain ⟨rfl, rfl⟩ := List.cons.inj he
        exact ⟨x :: y :: as, bs, rfl, by rw [squash_cons, if_pos hxy, hx], hy⟩
    · next hxy =>
      cases xs with
      | nil =>
        obtain ⟨rfl, rfl⟩ := List.cons.inj hs
        exact ⟨[], y :: ts, rfl, rfl, rfl⟩
      | cons z xs =>
        obtain ⟨rfl, hs'⟩ := List.cons.inj hs
        obtain ⟨as, bs, he, rfl, hy⟩ : ∃ as bs, y :: ts = as ++ t :: bs ∧ squash as = xs ∧
            squash bs = ys := squash_split h hs'
        refine ⟨x :: as, bs, by rw [he, List.cons_append], ?_, hy⟩
        cases as with
        | nil => rfl
        | cons a as =>
          obtain ⟨rfl, -⟩ := List.cons.inj he
          rw [squash_cons, if_neg hxy]
termination_by ts.length

theorem squash_text (pos : Nat) (a s : List Char) {us : List Token}
    (h : ∀ u ∈ us.head?, ¬ u.isText) :
    squash (⟨.text, String.ofList a, .ofBounds pos (pos + byteLength a)⟩ ::
        (ofText (pos + byteLength a) s ++ us)) =
      ⟨.text, String.ofList (a ++ s), .ofBounds pos (pos + byteLength (a ++ s))⟩ :: squash us := by
  induction s generalizing a with
  | nil =>
    rw [List.append_nil, ofText, List.nil_append]
    cases us with
    | nil => rfl
    | cons u us =>
      rw [squash_cons, if_neg (by simp [h u (by simp)])]
  | cons c s ih =>
    have hl : pos + byteLength a + c.utf8Size = pos + byteLength (a ++ [c]) := by
      rw [byteLength_append, Nat.add_assoc]
      simp [byteLength]
    have hj : join ⟨.text, String.ofList a, .ofBounds pos (pos + byteLength a)⟩
        ⟨.text, String.singleton c, .ofBounds (pos + byteLength a) (pos + byteLength (a ++ [c]))⟩ =
        ⟨.text, String.ofList (a ++ [c]), .ofBounds pos (pos + byteLength (a ++ [c]))⟩ := by
      have hv : String.ofList a ++ String.singleton c = String.ofList (a ++ [c]) := by
        apply String.toList_inj.1
        simp
      have hs : (Span.ofBounds (pos + byteLength a) (pos + byteLength (a ++ [c]))).stop =
          Span.clamp (pos + byteLength (a ++ [c])) :=
        Span.ofBounds_stop (by rw [byteLength_append]; omega)
      simp only [join, hv, hs]
      rw [Span.ofBounds_of_le (Nat.le_add_right pos (byteLength (a ++ [c])))]
      rfl
    rw [ofText, hl, List.cons_append, squash_cons, if_pos (by rfl), hj, ih (a ++ [c])]
    simp

theorem squash_ofText (pos : Nat) {s : List Char} (hs : s ≠ []) {us : List Token}
    (h : ∀ u ∈ us.head?, ¬ u.isText) :
    squash (ofText pos s ++ us) =
      ⟨.text, String.ofList s, .ofBounds pos (pos + byteLength s)⟩ :: squash us := by
  obtain ⟨c, s, rfl⟩ := List.exists_cons_of_ne_nil hs
  have := squash_text pos [c] s h
  simpa [ofText, byteLength] using this

theorem join_moved {k : Nat} {t u : Token} (h : t.span.start ≤ u.span.stop) :
    (t.moved k).join (u.moved k) = (t.join u).moved k := by
  have hs : t.span.start.toNat + k ≤ u.span.stop.toNat + k :=
    Nat.add_le_add_right (UInt32.le_iff_toNat_le.1 h) k
  have hspan : (⟨(t.span.moved k).start, (u.span.moved k).stop - (t.span.moved k).start⟩ : Span) =
      (t.join u).span.moved k := by
    rw [Span.moved_stop, Span.moved, Span.moved, join_start, join_stop h, Span.ofBounds_of_le hs]
    rfl
  simp only [join, moved, Token.mk.injEq, true_and]
  exact hspan

/-- Joining text before or behind a move of the source is the same. -/
theorem squash_moved {k a b : Nat} {ts : List Token} (h : Spaced a ts b) :
    squash (ts.map (moved k)) = (squash ts).map (moved k) := by
  match ts, h with
  | [], _ => rfl
  | [t], _ => rfl
  | t :: u :: us, h =>
    have hm : ((t.moved k).isText && (u.moved k).isText) = (t.isText && u.isText) := rfl
    have h1 := squash_moved (k := k) h.join.2
    have hr : Spaced t.span.stop.toNat (u :: us) b := h.2.2
    have h2 := squash_moved (k := k) hr
    rw [List.map_cons, List.map_cons, squash_cons, squash_cons, hm, join_moved h.join.1]
    split
    · exact h1
    · rw [← List.map_cons, h2]
      rfl
termination_by ts.length

end Token

end Stencil
