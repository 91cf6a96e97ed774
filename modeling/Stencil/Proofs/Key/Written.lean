import Stencil.Proofs.Key.Argument

/-!
# Keys written down

A key is written as its field and its steps, each step behind a bar, as a name and
arguments in parentheses, with blanks around all of them. Read back it has that field,
those steps and those arguments.
-/

set_option autoImplicit false

namespace Stencil.Key

open Text

def marks : List Char := ['|', '"', '\'', '(', ')']

structure Word where
  text : List Char
  trimmed : trim text = text
  free : ∀ c ∈ marks, c ∉ text

structure Name extends Word where
  ne_nil : text ≠ []

inductive Arguments
  | omitted
  | none (inside behind : Blanks)
  | some (first : Padded Argument) (more : List (Padded Argument)) (behind : Blanks)

namespace Arguments

def join (first : Padded Argument) (more : List (Padded Argument)) : List Char :=
  first.text Argument.text ++ (more.map (Padded.text Argument.text)).flatMap (',' :: ·)

def text : Arguments → List Char
  | omitted => []
  | none inside behind => '(' :: (inside.1 ++ [')']) ++ behind.1
  | some first more behind => '(' :: (join first more ++ [')']) ++ behind.1

def values : Arguments → List Value
  | omitted | none _ _ => []
  | some first more _ => (first :: more).map fun a => a.item.value

end Arguments

structure Call where
  name : Padded Name
  arguments : Arguments

namespace Call

def text (c : Call) : List Char := c.name.text (fun n => n.text) ++ c.arguments.text

def step (c : Call) : Step := ⟨String.ofList c.name.item.text, c.arguments.values⟩

end Call

structure Written where
  field : Padded Word
  steps : List Call

namespace Written

def text (k : Written) : List Char :=
  k.field.text Word.text ++ (k.steps.map Call.text).flatMap ('|' :: ·)

def pipeline (k : Written) : Pipeline := ⟨k.field.item.text, k.steps.map Call.step⟩

end Written

theorem Word.skips (w : Word) (n : Nat) : Skips '|' n w.text := by
  have hne : ∀ c ∈ w.text, ∀ m ∈ marks, c ≠ m := by
    rintro c hc m hm rfl
    exact w.free _ hm hc
  refine .inert (fun c hc => ?_) (w.free '|' (by simp [marks]))
  have h := hne c hc
  exact ⟨by simp [Place.isQuote, h '"' (by simp [marks]), h '\'' (by simp [marks])],
    h '(' (by simp [marks]), h ')' (by simp [marks])⟩

theorem Padded.argument_skips (a : Padded Argument) {d : Char} {n : Nat} (h : Scan d n) :
    Skips d n (a.text Argument.text) :=
  a.skips h.not_blank (a.item.skips h)

namespace Arguments

theorem join_skips (first : Padded Argument) (more : List (Padded Argument)) {d : Char} {n : Nat}
    (h : Scan d n) (hd : d ≠ ',') : Skips d n (join first more) := by
  refine (first.argument_skips h).append ?_
  induction more with
  | nil => exact .inert (by simp) (by simp)
  | cons a more ih =>
    have hcomma : Skips d n [','] :=
      .inert (List.forall_mem_singleton.2 (by decide)) (by simpa using hd)
    rw [List.map_cons, List.flatMap_cons]
    exact (hcomma.append (a.argument_skips h)).append ih

/-- Behind an opening parenthesis the text up to the closing one is cut at its commas. -/
theorem readArguments_join (first : Padded Argument) (more : List (Padded Argument)) :
    readArguments (join first more ++ [')']) = (first :: more).map fun a => a.item.value := by
  have hclosing := join_skips first more .closing (by decide)
  have hinside : arguments (Place.level 0) (join first more ++ [')']) = join first more := by
    rw [arguments_append hclosing.unmet, hclosing.back]
    simp [arguments, Place.top_level]
  have hcut : split ',' (join first more) =
      (first :: more).map (Padded.text Argument.text) := by
    have hmore : ∀ t ∈ more.map (Padded.text Argument.text), Skips ',' 0 t := by
      intro t ht
      obtain ⟨a, -, rfl⟩ := List.mem_map.1 ht
      exact a.argument_skips .comma
    rw [split, join, cutFrom_joined (first.argument_skips .comma) hmore]
    rfl
  have htrim : ((first :: more).map (Padded.text Argument.text)).map trim =
      (first :: more).map fun a => a.item.text := by
    rw [List.map_map]
    exact List.map_congr_left fun a _ => Padded.trim_text a.item.trim_text
  have hkeep : ((first :: more).map fun a => a.item.text).filter (· ≠ []) =
      (first :: more).map fun a => a.item.text := by
    refine List.filter_eq_self.2 fun t ht => ?_
    obtain ⟨a, -, rfl⟩ := List.mem_map.1 ht
    simpa using a.item.text_ne_nil
  show (((split ',' (arguments (Place.level 0) _)).map trim).filter (· ≠ [])).map literal = _
  rw [hinside, hcut, htrim, hkeep, List.map_map]
  exact List.map_congr_left fun a _ => a.item.literal_text

theorem readArguments_blank (b : Blanks) : readArguments (b.1 ++ [')']) = [] := by
  have hclosing := Skips.blanks (d := ')') (by decide) 0 b
  have hinside : arguments (Place.level 0) (b.1 ++ [')']) = b.1 := by
    rw [arguments_append hclosing.unmet, hclosing.back]
    simp [arguments, Place.top_level]
  have hcomma : meets ',' {} b.1 = false := (Skips.blanks (by decide) 0 b).unmet
  have hcut : split ',' b.1 = [b.1] := by rw [split, cutFrom_of_meets hcomma]
  have htrim : trim b.1 = [] := by
    have h := trim_padded (s := []) b.2 (e := []) (by simp [Blank]) rfl
    simpa using h
  show (((split ',' (arguments (Place.level 0) _)).map trim).filter (· ≠ [])).map literal = _
  rw [hinside, hcut, List.map_singleton, htrim]
  rfl

/-- What arguments are written as starts with a parenthesis, and is passed as a whole. -/
theorem skips (as : Arguments) : Skips '|' 0 as.text := by
  cases as with
  | omitted => exact .inert (by simp [text]) (by simp [text])
  | none inside behind =>
    exact ((Skips.blanks (by decide) 1 inside).parens (by decide) (by decide)).append
      (.blanks (by decide) 0 behind)
  | some first more behind =>
    exact ((join_skips first more .bar (by decide)).parens (by decide) (by decide)).append
      (.blanks (by decide) 0 behind)

end Arguments

namespace Name

theorem no_paren (n : Name) (b : Blanks) : ∀ c ∈ n.text ++ b.1, (c != '(') = true := by
  intro c hc
  rw [bne_iff_ne]
  rintro rfl
  rcases List.mem_append.1 hc with h | h
  · exact n.free '(' (by simp [marks]) h
  · exact (blank_inert (b.2 _ h)).2.1 rfl

theorem trim_behind (n : Name) (b : Blanks) : trim (n.text ++ b.1) = n.text := by
  have h := trim_padded (b := []) (by simp [Blank]) b.2 n.trimmed
  simpa using h

theorem isEmpty_text (n : Name) : n.text.isEmpty = false := by simpa using n.ne_nil

theorem readStep_alone (p : Padded Name) :
    readStep? (p.text fun n => n.text) = some ⟨String.ofList p.item.text, []⟩ := by
  have hname : ∀ c ∈ p.item.text, (c != '(') = true := fun c hc =>
    p.item.no_paren ⟨[], by simp [Blank]⟩ c (by simpa using hc)
  rw [readStep?, p.trim_text p.item.trimmed, List.takeWhile_eq_self_iff.2 hname,
    List.dropWhile_eq_nil_iff.2 hname, p.item.trimmed]
  simp [p.item.isEmpty_text]

/-- Behind a name the first parenthesis opens the arguments, and the last one is the end. -/
theorem readStep_call (p : Padded Name) (inside : List Char) (behind : Blanks) :
    readStep? (p.text (fun n => n.text) ++ ('(' :: (inside ++ [')']) ++ behind.1)) =
      some ⟨String.ofList p.item.text, readArguments (inside ++ [')'])⟩ := by
  have hflush := flush_of_trim p.item.trimmed
  have hcore : trim (p.item.text ++ p.behind.1 ++ '(' :: (inside ++ [')'])) =
      p.item.text ++ p.behind.1 ++ '(' :: (inside ++ [')']) := by
    refine trim_of_flush ?_ ?_
    · rw [List.append_assoc]
      exact hflush.1.append p.item.ne_nil _
    · intro c r h
      simp only [List.reverse_append, List.reverse_cons, List.append_assoc] at h
      rw [← (List.cons.inj h).1]
      rfl
  have htrim := trim_padded p.before.2 behind.2 hcore
  have htext : p.text (fun n => n.text) ++ ('(' :: (inside ++ [')']) ++ behind.1) =
      p.before.1 ++ (p.item.text ++ p.behind.1 ++ '(' :: (inside ++ [')'])) ++ behind.1 := by
    simp [Padded.text]
  have hword := p.item.no_paren p.behind
  rw [htext, readStep?, htrim, List.takeWhile_append_of_pos hword,
    List.dropWhile_append_of_pos hword]
  simp [p.item.trim_behind, p.item.isEmpty_text]

end Name

namespace Call

theorem skips (c : Call) : Skips '|' 0 c.text :=
  (Padded.skips (by decide) (c.name.item.toWord.skips 0)).append c.arguments.skips

theorem readStep_text (c : Call) : readStep? c.text = some c.step := by
  obtain ⟨name, as⟩ := c
  cases as with
  | omitted =>
    show readStep? (name.text (fun n => n.text) ++ []) = _
    rw [List.append_nil, Name.readStep_alone]
    rfl
  | none inside behind =>
    show readStep? (name.text (fun n => n.text) ++ ('(' :: (inside.1 ++ [')']) ++ behind.1)) = _
    rw [Name.readStep_call, Arguments.readArguments_blank]
    rfl
  | some first more behind =>
    show readStep? (name.text (fun n => n.text) ++
      ('(' :: (Arguments.join first more ++ [')']) ++ behind.1)) = _
    rw [Name.readStep_call, Arguments.readArguments_join]
    rfl

end Call

/-- A key that is written down reads back to what was written, however it is spaced,
quoted and escaped, and it is taken for a pipeline if it has a step. -/
theorem parse_written (k : Written) :
    parse k.text = k.pipeline ∧ (hasPipeline k.text = true ↔ k.steps ≠ []) := by
  have hfield : Skips '|' 0 (k.field.text Word.text) :=
    Padded.skips (by decide) (k.field.item.skips 0)
  have hsteps : ∀ t ∈ k.steps.map Call.text, Skips '|' 0 t := by
    intro t ht
    obtain ⟨c, -, rfl⟩ := List.mem_map.1 ht
    exact c.skips
  refine ⟨?_, ?_⟩
  · have hread : (k.steps.map Call.text).filterMap readStep? = k.steps.map Call.step := by
      rw [List.filterMap_map, ← List.filterMap_eq_map]
      exact List.filterMap_congr fun c _ => c.readStep_text
    rw [parse, Written.text, cutFrom_joined hfield hsteps]
    show (⟨trim _, _⟩ : Pipeline) = _
    rw [hread, k.field.trim_text k.field.item.trimmed]
    rfl
  · rw [hasPipeline, Written.text, meets_joined hfield]
    simp

example :
    let nothing : Blanks := ⟨[], by decide⟩
    let blank : Blanks := ⟨[' '], by decide⟩
    let field : Word := ⟨"a.b".toList, by decide, by simp [marks]⟩
    let name : Name := ⟨⟨"join".toList, by decide, by simp [marks]⟩, by decide⟩
    Written.text ⟨⟨nothing, field, blank⟩, [⟨⟨blank, name, nothing⟩,
      .some ⟨nothing, .quoted .single "|')", blank⟩ [⟨nothing, .int (-7), nothing⟩] blank⟩]⟩ =
      "a.b | join('|\\')' ,-7) ".toList := by decide

end Stencil.Key
