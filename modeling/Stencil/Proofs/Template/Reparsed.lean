import Stencil.Proofs.Template.Placement

/-!
# A section parsed again

A lambda gets the body of its section as text. Parsed with the delimiters in force
at the opening tag it gives the children of the section back, with their spans
counted from the start of the body. No span of them is clamped, so nothing is lost
on the way there or back.
-/

set_option autoImplicit false

namespace Stencil

open Text

def Span.back (k : UInt32) (s : Span) : Span := ⟨s.start - k, s.length⟩

namespace Node

mutual

def back (k : UInt32) : Node → Node
  | text s span => text s (span.back k)
  | variableTag name escaped span => variableTag name escaped (span.back k)
  | sectionTag name inverted span body cs =>
    sectionTag name inverted (span.back k) (body.back k) (backAll k cs)
  | partialTag name span => partialTag name (span.back k)
  | comment content span => comment content (span.back k)

def backAll (k : UInt32) : List Node → List Node
  | [] => []
  | n :: ns => back k n :: backAll k ns

end

end Node

namespace Span

variable {k : Nat} {s : Span}

def Movable (k : Nat) (s : Span) : Prop := s.start.toNat + s.length.toNat + k < 2 ^ 32

theorem back_moved (h : s.Movable k) : (s.moved k).back (clamp k) = s := by
  rw [Movable] at h
  have hstop : s.stop.toNat = s.start.toNat + s.length.toNat := clamp_toNat_of_lt (by omega)
  have hle : s.start.toNat + k ≤ s.stop.toNat + k := by omega
  have hk : (clamp k).toNat = k := clamp_toNat_of_lt (by omega)
  have hs : (s.moved k).start.toNat = s.start.toNat + k := start_toNat hle (by omega)
  have hl : (s.moved k).length.toNat = s.length.toNat := by
    rw [moved, length_toNat hle (by omega)]
    omega
  have hstart : (s.moved k).start - clamp k = s.start := by
    apply UInt32.toNat_inj.1
    rw [UInt32.toNat_sub_of_le _ _ (UInt32.le_iff_toNat_le.2 (by omega)), hs, hk,
      Nat.add_sub_cancel]
  rw [back, hstart, UInt32.toNat_inj.1 hl]

theorem Fits.movable {b : List Char} (h : s.Fits b) (hk : byteLength b + k < 2 ^ 32) :
    s.Movable k := by
  obtain ⟨a, m, z, rfl, hs, hl, -⟩ := h
  rw [byteLength_append, byteLength_append] at hk
  rw [Movable, hs, hl]
  omega

end Span

namespace Node

def Movable (k : Nat) (ns : List Node) : Prop :=
  ∀ n : Node, n.Inside ns → ∀ s ∈ n.spans, s.Movable k

variable {k : Nat}

theorem Movable.head {n : Node} {ns : List Node} (h : Movable k (n :: ns)) :
    (∀ s ∈ n.spans, s.Movable k) ∧ Movable k n.children :=
  ⟨h n (Inside.cons.2 (.inl rfl)), fun x hx => h x (Inside.cons.2 (.inr (.inl hx)))⟩

theorem Movable.tail {n : Node} {ns : List Node} (h : Movable k (n :: ns)) : Movable k ns :=
  fun x hx => h x (Inside.cons.2 (.inr (.inr hx)))

mutual

theorem back_moved (n : Node) (hs : ∀ s ∈ n.spans, s.Movable k) (hc : Movable k n.children) :
    back (Span.clamp k) (moved k n) = n := by
  cases n with
  | sectionTag name inverted span body cs =>
    rw [moved, back, Span.back_moved (hs span (by simp [spans])),
      Span.back_moved (hs body (by simp [spans])), backAll_movedAll cs hc]
  | text t s => rw [moved, back, Span.back_moved (hs s (by simp [spans]))]
  | variableTag name escaped s => rw [moved, back, Span.back_moved (hs s (by simp [spans]))]
  | partialTag name s => rw [moved, back, Span.back_moved (hs s (by simp [spans]))]
  | comment content s => rw [moved, back, Span.back_moved (hs s (by simp [spans]))]

theorem backAll_movedAll (ns : List Node) (h : Movable k ns) :
    backAll (Span.clamp k) (movedAll k ns) = ns := by
  cases ns with
  | nil => rfl
  | cons n ns =>
    rw [movedAll, backAll, back_moved n h.head.1 h.head.2, backAll_movedAll ns h.tail]

end

end Node

namespace Template

variable {d : Delimiters}

theorem parse_movable {k : Nat} {b : List Char} (h : byteLength b + k < 2 ^ 32) :
    Node.Movable k (parse d (String.ofList b)).nodes := by
  intro n hn s hs
  have hb : byteLength (String.ofList b).toList < 2 ^ 32 := by
    rw [String.toList_ofList]
    omega
  have hfit := spans_fit hb hn hs
  rw [String.toList_ofList] at hfit
  exact hfit.movable h

end Template

open Template in
/-- The raw body of every section, parsed with the delimiters in force at its opening
tag, gives the children of the section, whatever ended it. -/
theorem section_reparsed (d : Delimiters) (source : String)
    (h : byteLength source.toList < 2 ^ 32) (name : String) (inverted : Bool)
    (span body : Span) (cs : List Node)
    (hx : (Node.sectionTag name inverted span body cs).Inside (parse d source).nodes) :
    (parse (delimitersAt d source span) (String.ofList (body.slice source.toList))).nodes =
      Node.backAll body.start cs := by
  obtain ⟨a, b, c, hsrc, rfl, rfl⟩ := section_alone h hx
  rw [hsrc, byteLength_append, byteLength_append] at h
  have hstart : (Span.ofBounds (byteLength a) (byteLength a + byteLength b)).start =
      Span.clamp (byteLength a) := rfl
  rw [hstart, hsrc, Span.slice_ofBounds a b c (by omega)]
  exact (Node.backAll_movedAll _ (parse_movable (by omega))).symm

/-- A section that the close tag of the one around it ends, behind a change of the
delimiters and with another change in its body. -/
theorem section_reparsed_implicit :
    let source := "[=< ~=]é<#a~<#b~ü<=( )=~(x)(/a)"
    let cs : List Node := [.text "ü" ⟨17, 2⟩, .variableTag "x" true ⟨26, 3⟩]
    byteLength source.toList < 2 ^ 32 ∧
    (Node.sectionTag "b" false ⟨13, 4⟩ ⟨17, 12⟩ cs).Inside
      (Template.parse ⟨"[", "]"⟩ source).nodes ∧
    (Template.parse (Template.delimitersAt ⟨"[", "]"⟩ source ⟨13, 4⟩)
      (String.ofList ((⟨17, 12⟩ : Span).slice source.toList))).nodes = Node.backAll 17 cs := by
  intro source cs
  have hnodes : (Template.parse ⟨"[", "]"⟩ source).nodes =
      [.text "é" ⟨7, 2⟩, .sectionTag "a" false ⟨9, 4⟩ ⟨13, 16⟩
        [.sectionTag "b" false ⟨13, 4⟩ ⟨17, 12⟩ cs]] := by decide +kernel
  have hx : (Node.sectionTag "b" false ⟨13, 4⟩ ⟨17, 12⟩ cs).Inside
      (Template.parse ⟨"[", "]"⟩ source).nodes := by
    rw [hnodes]
    exact .deeper (List.mem_cons_of_mem _ List.mem_cons_self) (.here List.mem_cons_self)
  have hlen : byteLength source.toList < 2 ^ 32 := by decide +kernel
  exact ⟨hlen, hx, section_reparsed _ source hlen _ _ _ _ _ hx⟩

end Stencil
