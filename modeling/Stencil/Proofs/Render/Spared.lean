import Stencil.Proofs.Render.Wrapped

/-!
# Fields that are not named

Rendering data reads those of its fields that the template and the partials name. Two
objects that differ in a field that is not named are walked alike from the outermost
frame, no other frame ever stands on them, and so both give the same text.
-/

set_option autoImplicit false

namespace Stencil

variable {σ κ : Type}

namespace Key

def Apart (k : String) (field : List Char) : Prop :=
  field ≠ ['.'] ∧ String.ofList (head (dropDot field)).1 ≠ k

def Spares (k key : String) : Prop := Apart k (parse key.toList).field

instance (k key : String) : Decidable (Spares k key) := inferInstanceAs (Decidable (_ ∧ _))

end Key

namespace Value

structure AgreeBut (k : String) (fs gs : List (String × Value)) : Prop where
  same : ∀ name, name ≠ k → Table.get? name fs = Table.get? name gs
  plain : ∀ name v, name ≠ k → Table.get? name fs = some v → v.Plain

inductive Beside (k : String) : Value → Value → Prop
  | same (v : Value) : Beside k v v
  | but {fs gs : List (String × Value)} : AgreeBut k fs gs → Beside k (.object fs) (.object gs)

end Value

section Lookups

variable {env : Env σ} {k : String} {fs gs : List (String × Value)}

theorem walkOwn_but (h : Value.AgreeBut k fs gs) {path : List Char}
    (hk : String.ofList (Key.head path).1 ≠ k) :
    walkOwn env (.object fs) path = walkOwn env (.object gs) path := by
  rw [walkOwn, walkOwn, Value.property, Value.property, h.same _ hk]

theorem walkOwn_plain (h : Value.AgreeBut k fs gs) {path : List Char}
    (hk : String.ofList (Key.head path).1 ≠ k) :
    ∃ a, walkOwn env (.object fs) path = pure a ∧ ∀ w, a = some w → w.Plain := by
  rw [walkOwn, Value.property]
  cases hv : Table.get? (String.ofList (Key.head path).1) fs with
  | none => exact ⟨none, rfl, fun w hw => by cases hw⟩
  | some w => exact walk_plain env (h.plain _ w hk hv) _

theorem resolveLocal_beside {v v' : Value} (h : v.Beside k v') {name : List Char}
    (hk : String.ofList (Key.head name).1 ≠ k) :
    resolveLocal env v name = resolveLocal env v' name := by
  cases h with
  | same v => rfl
  | but h => exact walkOwn_but h hk

theorem resolveFirst_beside {name : List Char} (hk : String.ofList (Key.head name).1 ≠ k)
    {vs vs' : List Value} (h : List.Forall₂ (Value.Beside k) vs vs') :
    resolveFirst env name vs = resolveFirst env name vs' := by
  induction h with
  | nil => rfl
  | cons hv _ ih => rw [resolveFirst, resolveFirst, resolveLocal_beside hv hk, ih]

end Lookups

namespace Scope

variable (env : Env σ) {k : String}

structure Beside (k : String) (s s' : Scope) : Prop where
  value : s.value.Beside k s'.value
  outer : List.Forall₂ (Value.Beside k) s.outer s'.outer
  found : s.outer ≠ [] → s.value = s'.value

variable {s s' : Scope}

theorem find_beside (hs : s.Beside k s') {field : List Char} (h : Key.Apart k field) :
    s.find env field = s'.find env field := by
  rw [find_eq env s h.1, find_eq env s' h.1, resolveLocal_beside hs.value h.2,
    resolveFirst_beside h.2 (.cons hs.value hs.outer)]

theorem find_outermost {fs gs : List (String × Value)} (hv : Value.AgreeBut k fs gs)
    {field : List Char} (h : Key.Apart k field) :
    ∃ a, find env ⟨.object fs, []⟩ field = pure a ∧ ∀ w, a = some w → w.Plain := by
  obtain ⟨a, hlocal, hplain⟩ : ∃ a, resolveLocal env (.object fs) (dropDot field) = pure a ∧
      ∀ w, a = some w → w.Plain := walkOwn_plain hv h.2
  refine ⟨a, ?_, hplain⟩
  rw [find_eq env _ h.1]
  split
  · exact hlocal
  · rw [resolveFirst, hlocal, pure_bind]
    cases a <;> rfl

theorem resolveAfresh_beside (hs : s.Beside k s') {field : List Char} (h : Key.Apart k field) :
    s.resolveAfresh env field = s'.resolveAfresh env field := by
  have hfind := find_beside env hs h
  obtain ⟨v, vs⟩ := s
  obtain ⟨v', vs'⟩ := s'
  obtain ⟨hv, ho, hf⟩ := hs
  cases hv with
  | same v => simp only [resolveAfresh, hfind]
  | @but fs gs hv =>
    by_cases hne : vs = []
    · -- the receiver of a getter would differ here, but none is found
      subst hne
      cases ho
      obtain ⟨a, ha, hplain⟩ := find_outermost env hv h
      have hdata : ∀ w, a = some w → w.unwrapped.Plain := fun w hw => by
        rw [Value.unwrapped_plain (hplain w hw)]
        exact hplain w hw
      rw [resolveAfresh_data env ha hdata, resolveAfresh_data env (hfind ▸ ha) hdata]
    · obtain rfl : fs = gs := by simpa using hf hne
      simp only [resolveAfresh, hfind]

theorem lookup_beside (hs : s.Beside k s') {key : String}
    (ht : Text.trim key.toList = key.toList) (h : Key.Spares k key) :
    s.lookup env key.toList = s'.lookup env key.toList := by
  rw [lookup_eq env s ht, lookup_eq env s' ht]
  simp only [resolve, resolveAfresh_beside env hs h]

end Scope

def Value.sparing (k : String) (κ : Type) : Likeness κ κ :=
  ⟨(· = ·), Value.Beside k, (· = ·), True⟩

namespace Value

theorem sparing_sound (k : String) (κ : Type) : (sparing k κ).Sound := .of_eq rfl .same trivial

theorem sparing_outcomes {k : String} {x y : Except RenderFault (String × World σ κ)}
    (h : Outcomes True (fun r r' => r.1 = r'.1 ∧ (sparing k κ).Worlds r.2 r'.2) x y) : x = y := by
  cases h with
  | @ok r r' hr =>
    obtain ⟨out, w⟩ := r
    obtain ⟨out', w'⟩ := r'
    obtain ⟨rfl, hhost, hlib, hmemo, hskipped⟩ := hr
    have hm : w.memo = w'.memo := (Likeness.entries_iff (l := sparing k κ) rfl).1 hmemo
    obtain ⟨host, lib, memo, skipped⟩ := w
    obtain ⟨host', lib', memo', skipped'⟩ := w'
    obtain rfl : host = host' := hhost
    obtain rfl : lib = lib' := hlib
    obtain rfl : memo = memo' := hm
    obtain rfl : skipped = skipped' := hskipped
    rfl
  | error f _ => rfl

end Value

theorem Act.lookup_spared (env : Env σ) {k key : String} (ht : Text.trim key.toList = key.toList)
    (h : Key.Spares k key) {scope scope' : Scope}
    (hs : (Value.sparing k κ).Scopes scope scope') :
    (Value.sparing k κ).Acts (· = ·) (Act.lookup env scope key : Act σ κ Value)
      (Act.lookup env scope' key : Act σ κ Value) := by
  intro w w' hw
  have hm : w.memo = w'.memo := (Likeness.entries_iff (l := Value.sparing k κ) rfl).1 hw.memo
  have hlookup := Scope.lookup_beside env ⟨hs.value, hs.outer, hs.found⟩ ht h
  rw [Act.lookup, Act.lookup, hlookup, ← hw.host, ← hm]
  exact .ok ⟨rfl, rfl, hw.library, (Likeness.entries_iff rfl).2 rfl, hw.skipped⟩

namespace Table

def erase {α : Type} (k : String) (t : List (String × α)) : List (String × α) :=
  t.filter fun e => e.1 ≠ k

theorem get?_erase_of_ne {α : Type} {j k : String} (hne : j ≠ k) (t : List (String × α)) :
    get? j (erase k t) = get? j t := by
  induction t with
  | nil => rfl
  | cons e t ih =>
    obtain ⟨i, w⟩ := e
    by_cases hi : i = k
    · have hj : j ≠ i := fun hj => hne (hj.trans hi)
      rw [erase, List.filter_cons_of_neg (by simpa using hi), get?, if_neg hj]
      exact ih
    · rw [erase, List.filter_cons_of_pos (by simpa using hi), get?, get?]
      split
      · rfl
      · exact ih

end Table

namespace Setting

/-- Two objects that differ in a field that nothing names are rendered to the same end. -/
theorem render_agreeing (st : Setting σ κ) {k : String} (hr : st.Reads (Key.Spares k) True)
    {d : Delimiters} {source : String}
    (ht : ∀ key ∈ Node.keysAll (Template.parse d source).nodes, Key.Spares k key)
    {fs gs : List (String × Value)} (hd : Value.AgreeBut k fs gs) (s : σ) (lib : κ) :
    st.render (.parse d source) (.object fs) { host := s, library := lib } =
      st.render (.parse d source) (.object gs) { host := s, library := lib } := by
  let K : String → Prop := fun key => Text.trim key.toList = key.toList ∧ Key.Spares k key
  have hlib : ∀ d source (c c' : κ), c = c' →
      (st.library.parse d source c).2 = (st.library.parse d source c').2 := by
    rintro d source c _ rfl
    rfl
  have hst : st.Alike (Value.sparing k κ) K st :=
    ⟨rfl, rfl, rfl, rfl, hlib, fun _ hkey _ _ hs => Act.lookup_spared st.env hkey.1 hkey.2 hs⟩
  have hreads : st.Reads K True :=
    ⟨fun name source hname key hkey =>
      ⟨Template.keys_trimmed _ _ hkey, hr.partials name source hname key hkey⟩,
    fun _ id body s => (hr.callbacks trivial id body s).mono fun text htext key hkey =>
      ⟨Template.keys_trimmed _ _ hkey, htext key hkey⟩⟩
  have hkeys : ∀ key ∈ Node.keysAll (Template.parse d source).nodes, K key := fun key hkey =>
    ⟨Template.keys_trimmed d source hkey, ht key hkey⟩
  have halike : (Value.sparing k κ).Acts (· = ·) (st.render (.parse d source) (.object fs))
      (st.render (.parse d source) (.object gs)) :=
    render_alike (Value.sparing_sound k κ) hst hreads hkeys (.but hd)
  exact Value.sparing_outcomes (halike ⟨rfl, rfl, .nil, rfl⟩)

end Setting

end Stencil
