import Stencil.Proofs.Template.Discipline
import Stencil.Proofs.Template.Tiling

/-!
# Trimmed tags

What a tag holds is trimmed when it is read, and neither joining texts nor nesting changes
it: so is what every node of a template holds that is no text.
-/

set_option autoImplicit false

namespace Stencil

open Text

namespace Text

theorem trim_trim (s : List Char) : trim (trim s) = trim s := by
  obtain ⟨-, -, -, hs⟩ := dropBlanks_split s
  obtain ⟨b, -, hb, hr⟩ := dropBlanks_split (dropBlanks s).reverse
  have hrev := congrArg List.reverse hb
  rw [List.reverse_reverse, List.reverse_append] at hrev
  refine trim_of_flush ?_ ?_
  · -- what is left is the front of a text that starts with no blank
    intro c r hcr
    refine hs c (r ++ b.reverse) ?_
    rw [hrev]
    exact congrArg (· ++ b.reverse) hcr
  · rw [trim, List.reverse_reverse]
    exact hr

/-- Trimmed text with the blanks around it; a text of blanks has all of them in front. -/
theorem trim_split (s : List Char) :
    ∃ a e, Blank a ∧ Blank e ∧ s = a ++ (trim s ++ e) ∧ (trim s = [] → e = []) := by
  obtain ⟨a, ha, hs, hf⟩ := dropBlanks_split s
  obtain ⟨e, he, hr, -⟩ := dropBlanks_split (dropBlanks s).reverse
  have htrim : dropBlanks s = trim s ++ e.reverse := by
    have hrev := congrArg List.reverse hr
    rwa [List.reverse_reverse, List.reverse_append] at hrev
  have hblank : Blank e.reverse := fun c hc => he c (List.mem_reverse.1 hc)
  refine ⟨a, e.reverse, ha, hblank, by rw [← htrim]; exact hs, ?_⟩
  intro h
  rw [h, List.nil_append] at htrim
  cases hrev : e.reverse with
  | nil => rfl
  | cons c r =>
    have hc := hf c r (htrim.trans hrev)
    rw [hblank c (by rw [hrev]; exact List.mem_cons_self)] at hc
    cases hc

theorem mem_of_mem_trim {c : Char} {s : List Char} (h : c ∈ trim s) : c ∈ s := by
  obtain ⟨a, e, -, -, hs, -⟩ := trim_split s
  rw [hs]
  exact List.mem_append_right a (List.mem_append_left e h)

theorem mem_trim_of_mem {c : Char} (hb : isBlank c = false) {s : List Char} (h : c ∈ s) :
    c ∈ trim s := by
  obtain ⟨a, e, ha, he, hs, -⟩ := trim_split s
  have hnot : ∀ x, Blank x → c ∉ x := by
    intro x hx hc
    rw [hx c hc] at hb
    cases hb
  rw [hs] at h
  rcases List.mem_append.1 h with h | h
  · exact absurd h (hnot a ha)
  · rcases List.mem_append.1 h with h | h
    · exact h
    · exact absurd h (hnot e he)

end Text

def Token.Trimmed (t : Token) : Prop :=
  t.isText = false → t.kind ≠ .setDelimiters → trim t.value.toList = t.value.toList

namespace Cursor

variable {c c' : Cursor} {u : List Char}

theorem Step.trimmed {l : Lexeme} (h : Step c u l c') {t : Token} (ht : .token t = l) :
    t.Trimmed := by
  intro htext hk
  cases h with
  | char _ =>
    cases ht
    cases htext
  | @tag d d' pos m u sigil body r l _ _ _ hl =>
    rcases Lexeme.ofTag_cases d (.ofBounds pos (pos + byteLength (m ++ u))) sigil body with
      ⟨e, -, -, he⟩ | ⟨-, -, he⟩ | ⟨-, -, -, he⟩ | ⟨-, -, he⟩
    · cases ht.trans (congrArg Prod.fst (hl.symm.trans he))
      exact absurd rfl hk
    · cases ht.trans (congrArg Prod.fst (hl.symm.trans he))
    · cases ht.trans (congrArg Prod.fst (hl.symm.trans he))
    · cases ht.trans (congrArg Prod.fst (hl.symm.trans he))
      rw [String.toList_ofList, trim_trim]

theorem Run.trimmed {ls : List Lexeme} (h : Run c u ls c') {t : Token} (ht : .token t ∈ ls) :
    t.Trimmed := by
  induction h with
  | nil c => cases ht
  | cons hs _ ih =>
    rcases List.mem_cons.1 ht with ht | ht
    · exact hs.trimmed ht
    · exact ih ht

theorem Stop.trimmed {ls : List Lexeme} (h : Stop c ls) {t : Token} (ht : .token t ∈ ls) :
    t.Trimmed := by
  cases h with
  | done => cases ht
  | blocked _ _ _ => cases ht
  | unclosed _ _ _ =>
    rcases List.mem_cons.1 ht with ht | ht
    · cases ht
    · obtain ⟨a, x, b, -, hx⟩ := Lexeme.mem_ofText ht
      cases hx
      intro htext
      cases htext

end Cursor

namespace Template

theorem tokens_trimmed (d : Delimiters) (source : String) {t : Token}
    (ht : t ∈ tokens d source) : t.Trimmed := by
  obtain ⟨u, ls, c', tail, hrun, hstop⟩ := Cursor.exists_run ⟨d, 0, source.toList⟩
  have hread : lexemes d source = ls ++ tail := by
    rw [← hstop.read]
    exact hrun.read
  have hmem := Lexeme.mem_tokens ht
  rw [hread] at hmem
  rcases List.mem_append.1 hmem with h | h
  · exact hrun.trimmed h
  · exact hstop.trimmed h

theorem nodes_trimmed (d : Delimiters) (source : String) {t : Token}
    (ht : t ∈ Node.preorderAll (parse d source).nodes) (htext : t.isText = false) :
    trim t.value.toList = t.value.toList := by
  have hpre : Node.preorderAll (parse d source).nodes =
      (Token.squash (tokens d source)).filter Token.hasNode := Nesting.finish_preorder _ _
  rw [hpre, List.mem_filter] at ht
  obtain ⟨hmem, hnode⟩ := ht
  obtain ⟨xs, ys, hs⟩ := List.append_of_mem hmem
  obtain ⟨as, bs, he, -, -⟩ := Token.squash_split htext hs
  refine tokens_trimmed d source (by rw [he]; simp) htext ?_
  intro hk
  rw [Token.hasNode, hk] at hnode
  cases hnode

end Template

end Stencil
