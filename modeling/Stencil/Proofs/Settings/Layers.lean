import Mathlib
import Stencil.Command.Render
import Stencil.Proofs.Template.InForce
import Stencil.Proofs.Toml.Keyed

/-!
# Settings from layers

A layer tells of a place in the settings, tells nothing of it, or cuts it off by something
that is no table above it. Of some layers the last one that is not silent decides: laying
each over those before comes to that at every place. So every setting and every single
severity is that of the last layer that has it, the severities as far as they are not cut
off. A severity may be given as a table, which is merged as all tables are: without entries
it adds nothing to the one below it. The settings are loaded exactly if the delimiters that
result are words, and these can be read again as they are shown.
-/

set_option autoImplicit false

namespace Stencil

/-- What a layer tells of a place. It is cut off by what is no table above it. -/
inductive Saying
  | silent
  | cut
  | value (v : Toml)

namespace Saying

def value? : Saying → Option Toml
  | value v => some v
  | silent | cut => none

def or : Saying → Saying → Saying
  | silent, below => below
  | told, _ => told

def blank : Saying → Bool
  | value (.table []) => true
  | _ => false

def onto : Saying → Option Toml → Option Toml
  | silent, below => below
  | cut, _ => none
  | value v, below => some (Settings.overlay below v)

end Saying

namespace Toml

def under? : List String → Toml → Option Toml
  | [], v => some v
  | k :: ks, table fs => (Table.get? k fs).bind (under? ks)
  | _ :: _, _ => none

def tells : List String → Toml → Saying
  | [], v => .value v
  | k :: ks, table fs =>
    match Table.get? k fs with
    | none => .silent
    | some v => tells ks v
  | _ :: _, _ => .cut

end Toml

def decided (path : List String) : List (List (String × Toml)) → Saying
  | [] => .silent
  | fs :: below => ((Toml.table fs).tells path).or (decided path below)

/-- The layers with more at a path than a table without entries. -/
def outspoken (path : List String) (layers : List (List (String × Toml))) :
    List (List (String × Toml)) :=
  layers.filter fun fs => !((Toml.table fs).tells path).blank

namespace Settings

def chosen {α : Type} (convert : Toml → Option α) (standard : α) (told : Saying) : Option α :=
  match told.value? with
  | some v => convert v
  | none => some standard

/-- Settings of which some layers decide each by itself, those that count more first. -/
structure FromLayers (layers : List (List (String × Toml))) (r : Settings) : Prop where
  debug : chosen toBool? false (decided ["debug"] layers) = some r.debug
  delimiters : chosen toDelimiters? .standard (decided ["tags"] layers) = some r.delimiters
  wrapDepth : chosen toNat? 3 (decided ["wrap_depth"] layers) = some r.wrapDepth
  extensions : chosen toTexts? ["mustache", "html", "tpl"]
    (decided ["template_extensions"] layers) = some r.extensions
  listed : ∀ items, decided ["diagnostics"] layers = .value (.array items) →
    toDiagnostics? (.array items) = some r.severities
  severity : (∀ items, decided ["diagnostics"] layers ≠ .value (.array items)) → ∀ k,
    chosen (fun v => (toSeverity? v).map some) none
      (decided ["diagnostics", "severity", k] (outspoken ["diagnostics", "severity", k] layers)) =
        some (Table.get? k r.severities)

end Settings

namespace Toml

open Settings

/-! ## Laying one over another -/

/-- Entry by entry: a key that is laid over holds what is laid over what it held. -/
theorem get?_overlayFields {fs : List (String × Toml)} (h : (Table.keys fs).Nodup)
    (us : List (String × Toml)) (k : String) :
    Table.get? k (overlayFields us fs) =
      match Table.get? k fs with
      | none => Table.get? k us
      | some v => some (overlay (Table.get? k us) v) := by
  induction fs generalizing us with
  | nil => rw [overlayFields, Table.get?]
  | cons f fs ih =>
    obtain ⟨j, w⟩ := f
    obtain ⟨hnot, hrest⟩ := List.nodup_cons.1 h
    rw [overlayFields, ih hrest]
    by_cases hkj : k = j
    · subst hkj
      have hnone : Table.get? k fs = none := by
        rwa [← Option.not_isSome_iff_eq_none, Table.get?_isSome]
      simp [hnone, Table.get?, Table.get?_put_self]
    · simp [Table.get?, hkj, Table.get?_put_of_ne hkj]

theorem keys_overlayFields {fs us : List (String × Toml)} (h : (Table.keys fs).Nodup) {k : String}
    (hk : k ∈ Table.keys fs) : k ∈ Table.keys (overlayFields us fs) := by
  rw [← Table.get?_isSome] at hk ⊢
  obtain ⟨v, hv⟩ := Option.isSome_iff_exists.1 hk
  rw [get?_overlayFields h, hv]
  rfl

theorem bind_under? (below : Option Toml) (k : String) (ks : List String) :
    below.bind (under? (k :: ks)) = (Table.get? k (fieldsOf below)).bind (under? ks) := by
  cases below with
  | none => rfl
  | some u => cases u <;> rfl

/-- The step: a value that is laid over what is there is laid over it at every place. -/
theorem under?_overlay {v : Toml} (hv : v.Keyed) (path : List String) (below : Option Toml) :
    (overlay below v).under? path = (v.tells path).onto (below.bind (under? path)) := by
  induction path generalizing v below with
  | nil =>
    rw [tells, Saying.onto, under?]
    cases below <;> rfl
  | cons k ks ih =>
    cases v with
    | table fs =>
      rw [overlay, under?, get?_overlayFields hv.1.nodup, bind_under?, tells]
      cases hget : Table.get? k fs with
      | none => rfl
      | some w => exact ih (KeyedFields.get? hv.2 hget) _
    | _ => rfl

/-- What is told of a place agrees with what stands there. A table that is told of is
there with its keys, and with those of layers below. -/
inductive Agrees : Saying → Option Toml → Prop
  | none {told : Saying} : told.value? = none → Agrees told none
  | value {v : Toml} : (∀ fs, v ≠ table fs) → Agrees (.value v) (some v)
  | table {fs gs : List (String × Toml)} : (∀ k ∈ Table.keys fs, k ∈ Table.keys gs) →
      Agrees (.value (table fs)) (some (table gs))

theorem Agrees.onto {t told : Saying} {place : Option Toml} (h : Agrees told place)
    (ht : ∀ v, t = .value v → v.Keyed) : Agrees (t.or told) (t.onto place) := by
  cases t with
  | silent => exact h
  | cut => exact .none rfl
  | value v =>
    cases v with
    | table fs => exact .table fun k hk => keys_overlayFields (ht _ rfl).1.nodup hk
    | _ => exact .value nofun

/-- The same without the tables that have no entries. Where they are all there is, and where
one of them has taken the place of something else, there is such a table. -/
inductive Merges : Saying → Option Toml → Prop
  | none {told : Saying} : told.value? = none → Merges told none
  | blank {told : Saying} : Merges told (some (table []))
  | value {v : Toml} : (∀ fs, v ≠ table fs) → Merges (.value v) (some v)
  | table {fs gs : List (String × Toml)} : fs ≠ [] →
      (∀ k ∈ Table.keys fs, k ∈ Table.keys gs) → Merges (.value (table fs)) (some (table gs))

theorem Merges.blank_onto {told : Saying} {place : Option Toml} (h : Merges told place) :
    Merges told (some (overlay place (Toml.table []))) := by
  cases h with
  | none _ => exact .blank
  | blank => exact .blank
  | @value v hno =>
    have hfields : fieldsOf (some v) = [] := by
      cases v with
      | table fs => exact absurd rfl (hno fs)
      | _ => rfl
    rw [overlay, hfields]
    exact .blank
  | table hne hkeys => exact .table hne hkeys

theorem Merges.onto {t told : Saying} {place : Option Toml} (h : Merges told place)
    (ht : ∀ v, t = .value v → v.Keyed) (hb : t.blank = false) :
    Merges (t.or told) (t.onto place) := by
  cases t with
  | silent => exact h
  | cut => exact .none rfl
  | value v =>
    cases v with
    | table fs =>
      have hfs : fs ≠ [] := by
        rintro rfl
        cases hb
      exact .table hfs fun k hk => keys_overlayFields (ht _ rfl).1.nodup hk
    | _ => exact .value nofun

theorem tells_keyed {path : List String} {v w : Toml} (hv : v.Keyed)
    (h : v.tells path = .value w) : w.Keyed := by
  induction path generalizing v with
  | nil =>
    cases h
    exact hv
  | cons k ks ih =>
    cases v with
    | table fs =>
      rw [tells] at h
      cases hget : Table.get? k fs with
      | none => simp [hget] at h
      | some w => exact ih (KeyedFields.get? hv.2 hget) (by simpa [hget] using h)
    | _ => cases h

end Toml

namespace Settings

open Toml

def PlainKeys (fs : List (String × Toml)) : Prop := ∀ k ∈ Table.keys fs, keyPath k = [k]

instance (fs : List (String × Toml)) : Decidable (PlainKeys fs) :=
  inferInstanceAs (Decidable (∀ k ∈ Table.keys fs, keyPath k = [k]))

theorem layer_plain {fs : List (String × Toml)} (h : PlainKeys fs) (us : List (String × Toml)) :
    layer us fs = overlayFields us fs := by
  induction fs generalizing us with
  | nil => rfl
  | cons f fs ih =>
    obtain ⟨k, v⟩ := f
    have hk : keyPath k = [k] := h k List.mem_cons_self
    have hrest : PlainKeys fs := fun j hj => h j (List.mem_cons_of_mem k hj)
    rw [overlayFields, ← ih hrest, layer, List.foldl_cons]
    dsimp only
    rw [hk]
    rfl

def merged (layers : List (List (String × Toml))) : List (String × Toml) :=
  layers.foldr (fun fs us => layer us fs) []

theorem under?_merged {fs : List (String × Toml)} {layers : List (List (String × Toml))}
    (hkeyed : (table fs).Keyed) (hplain : PlainKeys fs) (path : List String) :
    (table (merged (fs :: layers))).under? path =
      ((table fs).tells path).onto ((table (merged layers)).under? path) := by
  have hlaid : table (merged (fs :: layers)) =
      overlay (some (table (merged layers))) (table fs) := by
    rw [merged, List.foldr_cons, layer_plain hplain, ← merged]
    rfl
  rw [hlaid, under?_overlay hkeyed, Option.bind_some]

/-- The run: in the table that layers make together there stands what they decide on. -/
theorem merged_agrees {layers : List (List (String × Toml))}
    (hkeyed : ∀ fs ∈ layers, (table fs).Keyed) (hplain : ∀ fs ∈ layers, PlainKeys fs)
    (k : String) (ks : List String) :
    Agrees (decided (k :: ks) layers) ((table (merged layers)).under? (k :: ks)) := by
  induction layers with
  | nil => exact .none rfl
  | cons fs layers ih =>
    rw [List.forall_mem_cons] at hkeyed hplain
    rw [decided, under?_merged hkeyed.1 hplain.1]
    exact (ih hkeyed.2 hplain.2).onto fun v hv => tells_keyed hkeyed.1 hv

theorem merged_merges {layers : List (List (String × Toml))}
    (hkeyed : ∀ fs ∈ layers, (table fs).Keyed) (hplain : ∀ fs ∈ layers, PlainKeys fs)
    (k : String) (ks : List String) :
    Merges (decided (k :: ks) (outspoken (k :: ks) layers))
      ((table (merged layers)).under? (k :: ks)) := by
  induction layers with
  | nil => exact .none rfl
  | cons fs layers ih =>
    rw [List.forall_mem_cons] at hkeyed hplain
    have hrest := ih hkeyed.2 hplain.2
    rw [under?_merged hkeyed.1 hplain.1, outspoken]
    cases hb : ((table fs).tells (k :: ks)).blank with
    | false =>
      rw [List.filter_cons_of_pos (by simp [hb]), decided]
      exact hrest.onto (fun v hv => tells_keyed hkeyed.1 hv) hb
    | true =>
      rw [List.filter_cons_of_neg (by simp [hb])]
      have htold : (table fs).tells (k :: ks) = .value (.table []) := by
        revert hb
        cases (table fs).tells (k :: ks) with
        | value v => rcases v with _ | _ | _ | _ | _ | (_ | _) <;> simp [Saying.blank]
        | _ => simp [Saying.blank]
      rw [htold]
      exact hrest.blank_onto

theorem decided_keyed {layers : List (List (String × Toml))}
    (hkeyed : ∀ fs ∈ layers, (table fs).Keyed) {path : List String} {v : Toml}
    (h : decided path layers = .value v) : v.Keyed := by
  induction layers with
  | nil => cases h
  | cons fs layers ih =>
    rw [List.forall_mem_cons] at hkeyed
    rw [decided] at h
    cases htold : (table fs).tells path with
    | silent =>
      rw [htold] at h
      exact ih hkeyed.2 h
    | cut =>
      rw [htold] at h
      cases h
    | value w =>
      rw [htold] at h
      cases h
      exact tells_keyed hkeyed.1 htold

/-! ## Converting -/

theorem under?_single (k : String) (fs : List (String × Toml)) :
    (table fs).under? [k] = Table.get? k fs := by
  rw [under?]
  cases Table.get? k fs <;> rfl

/-- A setting that is no table is read from where it was decided. -/
theorem read?_chosen {α : Type} {convert : Toml → Option α}
    (htable : ∀ gs, convert (.table gs) = none) {key : String} {standard x : α}
    {fs : List (String × Toml)} {told : Saying} (h : Agrees told (Table.get? key fs))
    (hread : read? convert key standard fs = some x) : chosen convert standard told = some x := by
  rw [read?] at hread
  cases hget : Table.get? key fs with
  | none =>
    rw [hget] at h hread
    cases h with
    | none hnone => rwa [chosen, hnone]
  | some v =>
    rw [hget] at h hread
    dsimp only at hread
    cases h with
    | value hno => exact hread
    | table hkeys =>
      rw [htable] at hread
      cases hread

theorem get?_toSeverities {fs : List (String × Toml)} {ts : Severities}
    (h : toSeverities? (.table fs) = some ts) (k : String) :
    Table.get? k ts = (Table.get? k fs).bind toSeverity? ∧
      ∀ v, Table.get? k fs = some v → (toSeverity? v).isSome := by
  rw [toSeverities?] at h
  induction fs generalizing ts with
  | nil =>
    cases h
    exact ⟨rfl, nofun⟩
  | cons f fs ih =>
    obtain ⟨j, w⟩ := f
    rw [List.mapM_cons] at h
    obtain ⟨e, he, h⟩ := Option.bind_eq_some_iff.1 h
    obtain ⟨us, hus, h⟩ := Option.bind_eq_some_iff.1 h
    obtain ⟨s, hs, he⟩ := Option.bind_eq_some_iff.1 he
    cases h
    cases he
    by_cases hkj : k = j
    · simp [Table.get?, hkj, hs]
    · simpa [Table.get?, hkj] using ih hus

/-- A severity that is the only key of a table is that of every part of the table. -/
theorem toSeverity_part {fs gs : List (String × Toml)} (hkeyed : (table fs).Keyed) (hne : fs ≠ [])
    (hkeys : ∀ k ∈ Table.keys fs, k ∈ Table.keys gs)
    (h : (toSeverity? (.table gs)).isSome) : toSeverity? (.table fs) = toSeverity? (.table gs) := by
  match gs, h with
  | [(n, w)], _ =>
    match fs, hne with
    | [(j, v)], _ =>
      obtain rfl : j = n := by simpa [Table.keys] using hkeys
      rfl
    | (i, u) :: (j, v) :: fs, _ =>
      have hi : i = n := by simpa [Table.keys] using hkeys i (by simp [Table.keys])
      have hj : j = n := by simpa [Table.keys] using hkeys j (by simp [Table.keys])
      have hnodup := hkeyed.1.nodup
      simp [Table.keys, hi, hj] at hnodup

theorem severity_chosen {told : Saying} {place : Option Toml} (h : Merges told place)
    (hkeyed : ∀ v, told = .value v → v.Keyed)
    (hread : ∀ v, place = some v → (toSeverity? v).isSome) :
    chosen (fun v => (toSeverity? v).map some) none told = some (place.bind toSeverity?) := by
  cases h with
  | none hnone => rw [chosen, hnone, Option.bind_none]
  | blank => cases hread _ rfl
  | @value v hno =>
    obtain ⟨s, hs⟩ := Option.isSome_iff_exists.1 (hread v rfl)
    simp [chosen, Saying.value?, hs]
  | @table fs gs hne hkeys =>
    have hpart : toSeverity? (.table fs) = toSeverity? (.table gs) :=
      toSeverity_part (hkeyed _ rfl) hne hkeys (hread _ rfl)
    obtain ⟨s, hs⟩ := Option.isSome_iff_exists.1 (hread _ rfl)
    simp [chosen, Saying.value?, hpart, hs]

/-- Diagnostics by key hold the severities that stand at their places. -/
theorem get?_toDiagnostics {ds : List (String × Toml)} {ts : Severities}
    (h : toDiagnostics? (.table ds) = some ts) (k : String) :
    Table.get? k ts = ((table ds).under? ["severity", k]).bind toSeverity? ∧
      ∀ v, (table ds).under? ["severity", k] = some v → (toSeverity? v).isSome := by
  rw [toDiagnostics?] at h
  rw [under?]
  cases hget : Table.get? "severity" ds with
  | none =>
    rw [hget] at h
    cases h
    exact ⟨rfl, nofun⟩
  | some w =>
    rw [hget] at h
    cases w with
    | table ss =>
      rw [Option.bind_some, under?_single]
      exact get?_toSeverities h k
    | _ => cases h

theorem ofTable?_fields {fs : List (String × Toml)} {r : Settings} (h : ofTable? fs = some r) :
    read? toBool? "debug" false fs = some r.debug ∧
    read? toDelimiters? "tags" .standard fs = some r.delimiters ∧
    read? toNat? "wrap_depth" 3 fs = some r.wrapDepth ∧
    read? toTexts? "template_extensions" ["mustache", "html", "tpl"] fs = some r.extensions ∧
    read? toDiagnostics? "diagnostics" [] fs = some r.severities := by
  rw [ofTable?] at h
  obtain ⟨debug, hdebug, h⟩ := Option.bind_eq_some_iff.1 h
  obtain ⟨delimiters, hdelimiters, h⟩ := Option.bind_eq_some_iff.1 h
  obtain ⟨wrapDepth, hwrapDepth, h⟩ := Option.bind_eq_some_iff.1 h
  obtain ⟨extensions, hextensions, h⟩ := Option.bind_eq_some_iff.1 h
  obtain ⟨severities, hseverities, h⟩ := Option.bind_eq_some_iff.1 h
  cases h
  exact ⟨hdebug, hdelimiters, hwrapDepth, hextensions, hseverities⟩

/-- Settings that can be read from what some layers make together are decided by them. -/
theorem fromLayers {layers : List (List (String × Toml))}
    (hkeyed : ∀ fs ∈ layers, (table fs).Keyed) (hplain : ∀ fs ∈ layers, PlainKeys fs)
    {r : Settings} (h : ofTable? (merged layers) = some r) : r.FromLayers layers := by
  obtain ⟨hdebug, hdelimiters, hwrapDepth, hextensions, hseverities⟩ := ofTable?_fields h
  have hagrees : ∀ k, Agrees (decided [k] layers) (Table.get? k (merged layers)) := fun k => by
    rw [← under?_single]
    exact merged_agrees hkeyed hplain k []
  have hdiagnostics := hagrees "diagnostics"
  refine ⟨read?_chosen (fun _ => rfl) (hagrees _) hdebug,
    read?_chosen (fun _ => rfl) (hagrees _) hdelimiters,
    read?_chosen (fun _ => rfl) (hagrees _) hwrapDepth,
    read?_chosen (fun _ => rfl) (hagrees _) hextensions, fun items hitems => ?_, fun hno k => ?_⟩
  · rw [hitems] at hdiagnostics
    rw [read?] at hseverities
    generalize Table.get? "diagnostics" (merged layers) = place at hdiagnostics hseverities
    cases hdiagnostics with
    | none hnone => cases hnone
    | value _ => exact hseverities
  · have hk := merged_merges hkeyed hplain "diagnostics" ["severity", k]
    rw [under?] at hk
    rw [read?] at hseverities
    have hvalue : ∀ v, decided ["diagnostics", "severity", k]
        (outspoken ["diagnostics", "severity", k] layers) = .value v → v.Keyed :=
      fun v hv => decided_keyed (fun fs hfs => hkeyed fs (List.mem_filter.1 hfs).1) hv
    cases hget : Table.get? "diagnostics" (merged layers) with
    | none =>
      rw [hget] at hk hseverities
      have hsilent : r.severities = [] := (Option.some.inj hseverities).symm
      rw [hsilent]
      exact severity_chosen hk hvalue nofun
    | some v =>
      rw [hget] at hk hseverities hdiagnostics
      cases v with
      | table ds =>
        obtain ⟨hgetk, hread⟩ := get?_toDiagnostics hseverities k
        rw [hgetk]
        exact severity_chosen hk hvalue hread
      | array items =>
        generalize htold : decided ["diagnostics"] layers = told at hdiagnostics
        cases hdiagnostics with
        | value _ => exact absurd htold (hno items)
      | _ => cases hseverities

/-! ## Loading -/

theorem usable_iff {s : String} : usable s = true ↔ Text.Solid s.toList ∧ s.toList ≠ [] := by
  simp [usable, Text.Solid, and_comm]

theorem validate_words {r : Settings} (h : r.delimiters.Words) : r.validate = .ok r := by
  have ho := usable_iff.2 ⟨h.opening_solid, h.opening_ne⟩
  have hc := usable_iff.2 ⟨h.closing_solid, h.closing_ne⟩
  rw [validate, if_pos (Bool.and_eq_true_iff.2 ⟨ho, hc⟩)]

theorem validate_unusable {r : Settings} (h : ¬ r.delimiters.Words) :
    r.validate = .error (.invalidDelimiters r.delimiters) := by
  rw [validate, if_neg]
  intro hboth
  obtain ⟨ho, hc⟩ := Bool.and_eq_true_iff.1 hboth
  rw [usable_iff] at ho hc
  exact h ⟨ho.1, hc.1, ho.2, hc.2⟩

def held? : Option (Option String) → Option (List (String × Toml))
  | none => some []
  | some none => none
  | some (some text) => Toml.read? text

theorem held?_keyed {file : Option (Option String)} {fs : List (String × Toml)}
    (h : held? file = some fs) : (table fs).Keyed := by
  match file with
  | none =>
    cases h
    exact ⟨List.Pairwise.nil, trivial⟩
  | some (some text) => exact read_keyed h

theorem merge?_concat (texts : List String) (text : String) :
    merge? (texts ++ [text]) = do return layer (← merge? texts) (← Toml.read? text) := by
  rw [merge?, List.foldl_append]
  rfl

/-- Files that are there and those that are not make the table of all that they hold. -/
theorem merge?_held {files : List (Option (Option String))}
    {layers : List (List (String × Toml))}
    (h : List.Forall₂ (fun file fs => held? file = some fs) files layers) :
    ∃ texts, (files.reverse.filterMap id).mapM id = some texts ∧
      merge? texts = some (merged layers) := by
  induction h with
  | nil => exact ⟨[], rfl, rfl⟩
  | @cons file fs files layers hfile _ ih =>
    obtain ⟨texts, htexts, hmerge⟩ := ih
    match file with
    | none =>
      cases hfile
      exact ⟨texts, by simpa using htexts, hmerge⟩
    | some (some text) =>
      have hread : Toml.read? text = some fs := hfile
      refine ⟨texts ++ [text], ?_, ?_⟩
      · rw [List.reverse_cons, List.filterMap_append, List.mapM_append, htexts]
        rfl
      · rw [merge?_concat, hmerge, hread]
        rfl

end Settings

namespace Surroundings

def settingsFile? (s : Surroundings) (name : String) : Option (Option String) :=
  match s.files.entry? (s.directory ++ [name]) with
  | some (.file text) => some text
  | _ => none

theorem settingsLayers_eq (s : Surroundings) : s.settingsLayers =
    [s.settingsFile? "mojo.toml", s.settingsFile? ".mojo.toml",
      s.userSettings.map some].reverse.filterMap id := by
  have hfiles : s.settingsLayers = (s.userSettings.map some).toList ++
      List.filterMap s.settingsFile? Settings.fileNames := rfl
  rw [hfiles, Settings.fileNames, List.filterMap_cons, List.filterMap_cons]
  cases s.userSettings <;> cases s.settingsFile? ".mojo.toml" <;>
    cases s.settingsFile? "mojo.toml" <;> rfl

/-- What has been read of the settings files is what the settings are validated from. -/
theorem settings_held {s : Surroundings} {user dot main : List (String × Toml)} {r : Settings}
    (huser : Settings.held? (s.userSettings.map some) = some user)
    (hdot : Settings.held? (s.settingsFile? ".mojo.toml") = some dot)
    (hmain : Settings.held? (s.settingsFile? "mojo.toml") = some main)
    (h : Settings.ofTable? (Settings.merged [main, dot, user]) = some r) :
    s.settings = r.validate := by
  obtain ⟨texts, htexts, hmerge⟩ :=
    Settings.merge?_held (.cons hmain (.cons hdot (.cons huser .nil)))
  rw [settings, settingsLayers_eq, htexts]
  dsimp only
  rw [Settings.load, hmerge, Option.bind_some, h]

end Surroundings

theorem RenderArguments.delimiters_words {a : RenderArguments} {r : Settings} {d : Delimiters}
    (h : a.delimiters r = .ok d) (hr : r.delimiters.Words) : d.Words := by
  rw [RenderArguments.delimiters] at h
  cases htags : a.tags with
  | none =>
    rw [htags] at h
    cases h
    exact hr
  | some pair =>
    rw [htags] at h
    dsimp only at h
    cases hparse : Delimiters.parse? pair.toList with
    | none =>
      rw [hparse] at h
      cases h
    | some e =>
      rw [hparse] at h
      cases h
      exact Delimiters.parse?_words hparse

namespace Surroundings

/-- Three settings files, each of which may not be there: every setting is that of the last
that has it. The settings are loaded exactly if their delimiters are words, and then these,
and those that a rendering uses, are read again from how they are shown. -/
theorem settings_layered {s : Surroundings} {user dot main : List (String × Toml)}
    {merged : Settings} (huser : Settings.held? (s.userSettings.map some) = some user)
    (hdot : Settings.held? (s.settingsFile? ".mojo.toml") = some dot)
    (hmain : Settings.held? (s.settingsFile? "mojo.toml") = some main)
    (hplain : ∀ fs ∈ [main, dot, user], Settings.PlainKeys fs)
    (hmerged : Settings.ofTable? (Settings.merged [main, dot, user]) = some merged) :
    merged.FromLayers [main, dot, user] ∧
    (¬ merged.delimiters.Words → s.settings = .error (.invalidDelimiters merged.delimiters)) ∧
    (merged.delimiters.Words → s.settings = .ok merged ∧
      Delimiters.parse? merged.delimiters.text.toList = some merged.delimiters ∧
      ∀ (a : RenderArguments) (d : Delimiters), a.delimiters merged = .ok d →
        Delimiters.parse? d.text.toList = some d) := by
  have hkeyed : ∀ fs ∈ [main, dot, user], (Toml.table fs).Keyed := by
    simp only [List.forall_mem_cons]
    exact ⟨Settings.held?_keyed hmain, Settings.held?_keyed hdot, Settings.held?_keyed huser,
      nofun⟩
  have hsettings : s.settings = merged.validate := settings_held huser hdot hmain hmerged
  refine ⟨Settings.fromLayers hkeyed hplain hmerged, fun hwords => ?_, fun hwords => ?_⟩
  · rw [hsettings, Settings.validate_unusable hwords]
  · rw [hsettings, Settings.validate_words hwords]
    exact ⟨rfl, hwords.parse?_text, fun a d had => (a.delimiters_words had hwords).parse?_text⟩

def withSettings (user dot main : String) : Surroundings where
  directory := ["work"]
  files := [(["work", ".mojo.toml"], .file (some dot)), (["work", "mojo.toml"], .file (some main))]
  input := none
  userSettings := some user

theorem settings_layered_three :
    let severity (es : List (String × String)) : Toml :=
      .table [("severity", .table (es.map fun e => (e.1, .string e.2)))]
    let user := [("diagnostics", severity [("T100", "hint"), ("T104", "hint")]),
      ("tags", .array [.string "", .string " "])]
    let dot := [("debug", .bool true), ("diagnostics", severity [("T100", "off")])]
    let main := [("diagnostics", severity [("T101", "info")]),
      ("tags", .array [.string "<%", .string "%>"])]
    let merged : Settings :=
      { debug := true
        delimiters := ⟨"<%", "%>"⟩
        severities := [("T100", .off), ("T101", .info), ("T104", .hint)] }
    let s := withSettings
      "tags = [\"\", \" \"]\n[diagnostics.severity]\nT100 = \"hint\"\nT104 = \"hint\"\n"
      "debug = true\n[diagnostics.severity]\nT100 = \"off\"\n"
      "tags = [\"<%\", \"%>\"]\n[diagnostics.severity]\nT101 = \"info\"\n"
    merged.FromLayers [main, dot, user] ∧ s.settings = .ok merged := by
  intro severity user dot main merged s
  have huser : Settings.held? (s.userSettings.map some) = some user := by cbv
  have hdot : Settings.held? (s.settingsFile? ".mojo.toml") = some dot := by cbv
  have hmain : Settings.held? (s.settingsFile? "mojo.toml") = some main := by cbv
  have hplain : ∀ fs ∈ [main, dot, user], Settings.PlainKeys fs := by decide +kernel
  have hmerged : Settings.ofTable? (Settings.merged [main, dot, user]) = some merged := by cbv
  have hwords : merged.delimiters.Words := ⟨by decide, by decide, by decide, by decide⟩
  obtain ⟨hlayers, -, hloaded⟩ := settings_layered huser hdot hmain hplain hmerged
  exact ⟨hlayers, (hloaded hwords).1⟩

/-- Of three settings files only the first sets a severity, and yet the settings do not have
it: the second replaces all diagnostics by a list. -/
theorem severity_cut_off :
    let user := [("diagnostics", .table [("severity", .table [("T104", .string "hint")])])]
    let dot := [("diagnostics", .array [])]
    let main := [("diagnostics", .table [("severity", .table [("T100", .string "off")])])]
    let s := withSettings "[diagnostics.severity]\nT104 = \"hint\"\n" "diagnostics = []\n"
      "[diagnostics.severity]\nT100 = \"off\"\n"
    (Settings.held? (s.userSettings.map some) = some user ∧
      Settings.held? (s.settingsFile? ".mojo.toml") = some dot ∧
      Settings.held? (s.settingsFile? "mojo.toml") = some main) ∧
    ((Toml.table main).under? ["diagnostics", "severity", "T104"] = none ∧
      (Toml.table dot).under? ["diagnostics", "severity", "T104"] = none ∧
      (Toml.table user).under? ["diagnostics", "severity", "T104"] = some (.string "hint")) ∧
    ∃ r : Settings, s.settings = .ok r ∧ Table.get? "T104" r.severities = none := by
  intro user dot main s
  exact ⟨⟨by cbv, by cbv, by cbv⟩, ⟨by cbv, by cbv, by cbv⟩,
    { severities := [("T100", .off)] }, by cbv, by cbv⟩

end Surroundings

end Stencil
