import Mathlib
import Stencil.Command.Run
import Stencil.Proofs.Files.Walk
import Stencil.Proofs.Settings.Severity

/-!
# A check fails on errors

What a command line says of codes goes over what the settings say, key by key, and
what it ignores over what it selects. A check reports the problems that are not off,
template by template in the order of their paths, and fails if one of them is an
error. Its closing line counts the errors and the templates that have one.
-/

set_option autoImplicit false

namespace Stencil

open Severities

namespace CheckArguments

/-- What a key comes to: off if it is ignored, an error if it is selected, and else
what the settings say. -/
def entry? (a : CheckArguments) (settings : Severities) (key : String) : Option Severity :=
  if key ∈ a.ignore then some .off
  else if key ∈ a.select then some .error
  else Table.get? key settings

end CheckArguments

theorem Severities.get?_foldl_set (s : Severity) (codes : List String) (key : String)
    (t : Severities) :
    Table.get? key (codes.foldl (fun (t : Severities) code => t.set code s) t) =
      if key ∈ codes then some s else Table.get? key t := by
  induction codes generalizing t with
  | nil => simp
  | cons code codes ih =>
    rw [List.foldl_cons, ih]
    by_cases hmem : key ∈ codes
    · simp [hmem]
    · by_cases hkey : key = code
      · subst hkey
        simp [hmem, Severities.set, Table.get?_put_self]
      · simp [hmem, hkey, Severities.set, Table.get?_put_of_ne hkey]

namespace CheckArguments

variable (a : CheckArguments) (settings : Severities)

theorem get?_severities (key : String) :
    Table.get? key (a.severities settings) = a.entry? settings key := by
  rw [severities, get?_foldl_set, get?_foldl_set, entry?]

def keys : List String := Table.keys settings ++ a.select ++ a.ignore

theorem mem_keys {key : String} (h : key ∈ Table.keys (a.severities settings)) :
    key ∈ a.keys settings := by
  have hsome := Table.get?_isSome.2 h
  rw [get?_severities, entry?] at hsome
  rw [keys, List.mem_append, List.mem_append]
  by_cases hi : key ∈ a.ignore
  · exact .inr hi
  · by_cases hs : key ∈ a.select
    · exact .inl (.inr hs)
    · rw [if_neg hi, if_neg hs] at hsome
      exact .inl (.inl (Table.get?_isSome.1 hsome))

/-- The severity of a code is that of the longest key that fits it. -/
theorem resolves_iff (h : Apart (a.keys settings)) {code : String} {s : Severity} :
    Severity.Resolves (a.entry? settings) code s ↔ (a.severities settings).severityOf code = s := by
  have hentry : a.entry? settings = fun k => Table.get? k (a.severities settings) := by
    funext k
    exact (a.get?_severities settings k).symm
  have hapart : Apart (Table.keys (a.severities settings)) := by
    intro j hj k hk hjk
    exact h j (a.mem_keys settings hj) k (a.mem_keys settings hk) hjk
  rw [hentry]
  exact Severities.resolves_iff hapart

theorem severityOf_of_entry {code : String} {s : Severity} (h : a.entry? settings code = some s) :
    (a.severities settings).severityOf code = s := by
  rw [severityOf, get?_severities, h]

end CheckArguments

namespace CheckedTemplate

def Reports (severity : String → Severity) (r : (String × String) × Problem) (d : Diagnostic) :
    Prop :=
  ∃ level, Level.ofSeverity? (severity r.2.code) = some level ∧
    d = ⟨r.1.1, r.1.2, r.2.code, r.2.message, level, r.2.span, r.2.label, r.2.notes⟩

def recorded (t : CheckedTemplate) : List ((String × String) × Problem) :=
  t.problems.map fun p => ((t.path, t.source), p)

def hasError (severity : String → Severity) (t : CheckedTemplate) : Bool :=
  t.problems.any fun p => severity p.code == .error

theorem hasError_iff {severity : String → Severity} {t : CheckedTemplate} :
    t.hasError severity = true ↔ ∃ p ∈ t.problems, severity p.code = .error := by
  simp [hasError]

variable (severities : Severities)

/-- A template is reported by its problems that are not off, in their order. -/
theorem reports_forall (t : CheckedTemplate) :
    List.Forall₂ (Reports severities.severityOf)
      (t.recorded.filter fun r => severities.severityOf r.2.code != .off)
      (t.reports severities) := by
  rw [recorded, reports]
  induction t.problems with
  | nil => exact .nil
  | cons p ps ih =>
    rw [List.map_cons, List.filter_cons, List.filterMap_cons, Problem.report?]
    cases hlevel : Level.ofSeverity? (severities.severityOf p.code) with
    | none =>
      have hoff := Level.ofSeverity?_eq_none.1 hlevel
      rw [if_neg (by simp [hoff])]
      exact ih
    | some level =>
      have hoff : severities.severityOf p.code ≠ .off := by
        intro h
        rw [Level.ofSeverity?_eq_none.2 h] at hlevel
        cases hlevel
      rw [if_pos (by simpa using hoff)]
      exact .cons ⟨level, hlevel, rfl⟩ ih

theorem Reports.error_iff {severity : String → Severity} {r : (String × String) × Problem}
    {d : Diagnostic} (h : Reports severity r d) :
    d.level = .error ↔ severity r.2.code = .error := by
  obtain ⟨level, hlevel, rfl⟩ := h
  rw [← Level.ofSeverity?_eq_error, hlevel]
  exact ⟨congrArg some, Option.some.inj⟩

theorem errors_length {severity : String → Severity} {rs : List ((String × String) × Problem)}
    {ds : List Diagnostic} (h : List.Forall₂ (Reports severity) rs ds) :
    (ds.filter fun d => d.level = .error).length =
      (rs.filter fun r => severity r.2.code == .error).length := by
  induction h with
  | nil => rfl
  | @cons r d rs ds hr _ ih =>
    rw [List.filter_cons, List.filter_cons]
    by_cases herror : severity r.2.code = .error
    · rw [if_pos (by simpa using hr.error_iff.2 herror), if_pos (by simpa using herror),
        List.length_cons, List.length_cons, ih]
    · rw [if_neg (by simpa using fun h => herror (hr.error_iff.1 h)),
        if_neg (by simpa using herror), ih]

theorem errors_eq (t : CheckedTemplate) :
    t.errors severities =
      (t.recorded.filter fun r => severities.severityOf r.2.code == .error).length := by
  rw [errors, errors_length (reports_forall severities t), List.filter_filter]
  congr 1
  apply List.filter_congr
  intro r _
  cases severities.severityOf r.2.code <;> rfl

theorem errors_pos (t : CheckedTemplate) :
    0 < t.errors severities ↔ t.hasError severities.severityOf = true := by
  rw [errors_eq, hasError_iff, List.length_pos_iff_exists_mem]
  simp [recorded]

end CheckedTemplate

namespace Check

open CheckedTemplate

def recorded (d : Delimiters) (sources : List (String × String)) :
    List ((String × String) × Problem) :=
  sources.flatMap fun f => (Template.parse d f.2).problems.map fun p => (f, p)

/-- The outcome of a check of some sources, each behind its path, by the severities of the
problems that are recorded when they are parsed. -/
structure Verdict (severity : String → Severity) (d : Delimiters)
    (sources : List (String × String)) (log : String) (o : Outcome) : Prop where
  printed : ∃ ds, List.Forall₂ (Reports severity)
      ((recorded d sources).filter fun r => severity r.2.code != .off) ds ∧
    o.output = String.join (ds.map fun d => d.text ++ "\n\n")
  failure : o.code = 1 ↔
    ∃ f ∈ sources, ∃ p ∈ (Template.parse d f.2).problems, severity p.code = .error
  success : o.code = 0 ↔
    ∀ f ∈ sources, ∀ p ∈ (Template.parse d f.2).problems, severity p.code ≠ .error
  closing : o.code = 1 → o.errors = log ++ CheckSummary.message
    ⟨((recorded d sources).filter fun r => severity r.2.code == .error).length,
      (sources.filter fun f => (Template.parse d f.2).problems.any fun p =>
        severity p.code == .error).length⟩ ++ "\n"
  silent : o.code = 0 → o.errors = log

inductive Reads (i : Invocation) (s : Surroundings) (settings : Settings) (a : CheckArguments) :
    List (String × String) → (log : String) → Prop
  | input {source : String} : Check.readsInput s.interactive a = true → s.input = some source →
      Reads i s settings a [("<stdin>", source)] ""
  | files {fs : List (List String)} : Check.readsInput s.interactive a = false →
      fs.Pairwise (· < ·) →
      (∀ f, f ∈ fs ↔
        ∃ path ∈ if a.paths.isEmpty then [s.directoryText] else a.paths.map s.absolute,
          f ∈ (Walk.ofPath s.files s.directory settings.isTemplate
            ⟨a.hidden, a.noIgnore, a.globs⟩ path).1) →
      Reads i s settings a
        (fs.filterMap fun f => (s.files.text? f).map fun text => (Path.text ⟨true, f⟩, text))
        (i.log s (Check.templates s settings a).2)

structure Faithful (settings : Settings) (a : CheckArguments) : Prop where
  resolved : ∀ code s, Severity.Resolves (a.entry? settings.severities) code s ↔
    (a.severities settings.severities).severityOf code = s
  ignored : ∀ code ∈ a.ignore, (a.severities settings.severities).severityOf code = .off
  selected : ∀ code ∈ a.select, code ∉ a.ignore →
    (a.severities settings.severities).severityOf code = .error
  verdict : ∀ d sources log, Verdict (a.severities settings.severities).severityOf d sources log
    (Invocation.conclude (a.severities settings.severities)
      (sources.map fun f => .ofSource d f.1 f.2) log)
  run : ∀ (i : Invocation) (s : Surroundings), s.settings = .ok settings →
    (Check.readsInput s.interactive a = true ∧ s.input = none) ∨
    ∃ sources log, Reads i s settings a sources log ∧
      Verdict (a.severities settings.severities).severityOf settings.delimiters sources log
        (i.check s a)

variable (severities : Severities)

/-- The reports on some templates stand in the order of their problems. -/
theorem reports_forall (ts : List CheckedTemplate) :
    List.Forall₂ (Reports severities.severityOf)
      ((ts.flatMap CheckedTemplate.recorded).filter fun r =>
        severities.severityOf r.2.code != .off)
      (ts.flatMap (·.reports severities)) := by
  induction ts with
  | nil => exact .nil
  | cons t ts ih =>
    rw [List.flatMap_cons, List.filter_append, List.flatMap_cons]
    exact List.rel_append (t.reports_forall severities) ih

/-- The counts of a check are those of its errors and of the templates that have one. -/
theorem summary_eq (ts : List CheckedTemplate) :
    CheckSummary.ofTemplates severities ts =
      ⟨((ts.flatMap CheckedTemplate.recorded).filter fun r =>
          severities.severityOf r.2.code == .error).length,
        (ts.filter fun t => t.hasError severities.severityOf).length⟩ := by
  induction ts with
  | nil => rfl
  | cons t ts ih =>
    simp only [CheckSummary.ofTemplates, CheckSummary.mk.injEq] at ih ⊢
    obtain ⟨hsum, hcount⟩ := ih
    constructor
    · rw [List.map_cons, List.sum_cons, hsum, List.flatMap_cons, List.filter_append,
        List.length_append, t.errors_eq]
    · rw [List.map_cons, List.filter_cons, List.filter_cons]
      by_cases herror : t.hasError severities.severityOf
      · rw [if_pos (by simpa using (t.errors_pos severities).2 herror), if_pos herror,
          List.length_cons, List.length_cons, hcount]
      · rw [if_neg (by simpa using fun h => herror ((t.errors_pos severities).1 h)),
          if_neg herror, hcount]

theorem failed_iff (ts : List CheckedTemplate) :
    (CheckSummary.ofTemplates severities ts).failed = true ↔
      ∃ t ∈ ts, ∃ p ∈ t.problems, severities.severityOf p.code = .error := by
  rw [summary_eq, CheckSummary.failed, decide_eq_true_iff, List.length_pos_iff_exists_mem]
  simp only [List.mem_filter, List.mem_flatMap, CheckedTemplate.recorded, List.mem_map, beq_iff_eq]
  constructor
  · rintro ⟨r, ⟨t, ht, p, hp, rfl⟩, herror⟩
    exact ⟨t, ht, p, hp, herror⟩
  · rintro ⟨t, ht, p, hp, herror⟩
    exact ⟨_, ⟨t, ht, p, hp, rfl⟩, herror⟩

/-- Templates that are read from sources have the problems of those. -/
theorem recorded_ofSource (d : Delimiters) (sources : List (String × String)) :
    (sources.map fun f => CheckedTemplate.ofSource d f.1 f.2).flatMap CheckedTemplate.recorded =
      recorded d sources := by
  rw [List.flatMap_map]
  rfl

theorem filter_ofSource (d : Delimiters) (sources : List (String × String)) :
    ((sources.map fun f => CheckedTemplate.ofSource d f.1 f.2).filter fun t =>
        t.hasError severities.severityOf).length =
      (sources.filter fun f => (Template.parse d f.2).problems.any fun p =>
        severities.severityOf p.code == .error).length := by
  rw [List.filter_map, List.length_map]
  rfl

theorem conclude_verdict (d : Delimiters) (sources : List (String × String)) (log : String) :
    Verdict severities.severityOf d sources log (Invocation.conclude severities
      (sources.map fun f => .ofSource d f.1 f.2) log) := by
  generalize hts : (sources.map fun f => CheckedTemplate.ofSource d f.1 f.2) = ts
  have hfail : (CheckSummary.ofTemplates severities ts).failed = true ↔
      ∃ f ∈ sources, ∃ p ∈ (Template.parse d f.2).problems,
        severities.severityOf p.code = .error := by
    rw [failed_iff, ← hts]
    simp only [List.mem_map, exists_exists_and_eq_and]
    rfl
  have hcount : CheckSummary.ofTemplates severities ts =
      ⟨((recorded d sources).filter fun r => severities.severityOf r.2.code == .error).length,
        (sources.filter fun f => (Template.parse d f.2).problems.any fun p =>
          severities.severityOf p.code == .error).length⟩ := by
    rw [summary_eq, ← hts, recorded_ofSource, filter_ofSource]
  have hprinted := reports_forall severities ts
  rw [← hts, recorded_ofSource, hts] at hprinted
  cases hf : (CheckSummary.ofTemplates severities ts).failed with
  | true =>
    have herror := hfail.1 hf
    exact {
      printed := ⟨_, hprinted, rfl⟩
      failure := by simpa [Invocation.conclude, hf] using herror
      success := by simpa [Invocation.conclude, hf] using herror
      closing := fun _ => by
        rw [← hcount, String.append_assoc]
        simp [Invocation.conclude, hf]
      silent := by simp [Invocation.conclude, hf] }
  | false =>
    have herror : ¬ ∃ f ∈ sources, ∃ p ∈ (Template.parse d f.2).problems,
        severities.severityOf p.code = .error := by
      rw [← hfail, hf]
      exact Bool.false_ne_true
    exact {
      printed := ⟨_, hprinted, rfl⟩
      failure := by simpa [Invocation.conclude, hf] using herror
      success := by simpa [Invocation.conclude, hf] using herror
      closing := by simp [Invocation.conclude, hf]
      silent := fun _ => by simp [Invocation.conclude, hf] }

def walked (s : Surroundings) (settings : Settings) (a : CheckArguments) : List (List String) :=
  (Walk.files s.files s.directory settings.isTemplate ⟨a.hidden, a.noIgnore, a.globs⟩
    (if a.paths.isEmpty then [s.directoryText] else a.paths.map s.absolute)).1

def walkedSources (s : Surroundings) (settings : Settings) (a : CheckArguments) :
    List (String × String) :=
  (walked s settings a).filterMap fun f =>
    (s.files.text? f).map fun text => (Path.text ⟨true, f⟩, text)

theorem templates_walked (s : Surroundings) (settings : Settings) (a : CheckArguments) :
    (templates s settings a).1 = (walkedSources s settings a).map fun f =>
      .ofSource settings.delimiters f.1 f.2 := by
  rw [walkedSources, List.map_filterMap]
  simp [templates, walked, List.filterMap_map, Function.comp_def]

/-- A check reads its sources and concludes from them, unless its input is no text. -/
theorem check_reads {settings : Settings} (a : CheckArguments) (i : Invocation)
    {s : Surroundings} (hs : s.settings = .ok settings) :
    (Check.readsInput s.interactive a = true ∧ s.input = none) ∨
    ∃ sources log, Reads i s settings a sources log ∧
      i.check s a = Invocation.conclude (a.severities settings.severities)
        (sources.map fun f => .ofSource settings.delimiters f.1 f.2) log := by
  rw [Invocation.check, hs]
  cases hr : Check.readsInput s.interactive a with
  | true =>
    cases hi : s.input with
    | none => exact .inl ⟨rfl, rfl⟩
    | some source => exact .inr ⟨_, _, .input hr hi, rfl⟩
  | false =>
    have hmem : ∀ f, f ∈ walked s settings a ↔
        ∃ path ∈ if a.paths.isEmpty then [s.directoryText] else a.paths.map s.absolute,
          f ∈ (Walk.ofPath s.files s.directory settings.isTemplate
            ⟨a.hidden, a.noIgnore, a.globs⟩ path).1 := by
      intro f
      rw [walked, Walk.files, Walk.mem_sorted, List.mem_flatMap]
      simp only [List.mem_map, exists_exists_and_eq_and]
    have hpair : (walked s settings a).Pairwise (· < ·) := Walk.sorted_pairwise _
    refine .inr ⟨_, _, .files hr hpair hmem, ?_⟩
    rw [← walkedSources, ← templates_walked]
    rfl

end Check

end Stencil
