import Stencil.Lookup.Context
import Stencil.Proofs.Lookup.Wrapped

/-!
# What a node answers

A node takes a key apart whether or not there is a bar in it, and a lookup only if
there is one; a node reads its field behind a dot in front, and a lookup hands it to
the frame. For plain data both come to the same value, and a node has no answer only
where a lookup would have had to put nothing in its place.
-/

set_option autoImplicit false

namespace Stencil

variable {σ : Type} (env : Env σ)

def ownField (fields : List (String × Value)) (field : List Char) : StateM σ (Option Value) :=
  if (dropDot field).isEmpty then pure (some (.object fields))
  else walkOwn env (.object fields) (dropDot field)

theorem walk_ownField (id : NodeId) (owner : Owner) (fields : List (String × Value))
    (key : List Char) :
    walk env (.node id owner fields) (some key) =
      ownField env fields (Key.parse key).field >>=
        formatted env owner fields (Key.parse key).steps :=
  walk_node env id owner fields key

/-- Data is formatted as it is; only a getter would be called first. -/
theorem formatted_data {owner : Owner} (hw : env.registry owner = Standard.formatters)
    (fields : List (String × Value)) (steps : List Step) {found : Option Value}
    (h : ∀ v, found = some v → v.unwrapped.Plain) :
    formatted env owner fields steps found =
      pure (if steps.isEmpty then found
        else some (Standard.formatters.run steps (found.getD .null))) := by
  simp only [formatted, hw, Host.run_standard]
  split
  · rfl
  · cases found with
    | none => rfl
    | some v =>
      cases v with
      | getter id => exact (h _ rfl).elim
      | _ => rfl

theorem rel_plain {a b : Option Value} (h : Option.Rel Value.WrappedAs a b) :
    (∀ v, a = some v → v.unwrapped.Plain) ∧ ∀ n, b = some n → n.unwrapped.Plain := by
  cases h with
  | none => exact ⟨nofun, nofun⟩
  | some hv =>
    refine ⟨?_, ?_⟩
    · rintro v ⟨⟩
      exact hv.plain_data
    · rintro n ⟨⟩
      exact hv.plain_wrapped

namespace Scope

/-- In a single frame of data a simple field is found by walking it, with its dot or
without. -/
theorem find_alone {v : Value} (hv : v.Plain) {field : List Char} (h : Key.Dotted (dropDot field))
    {found : Option Value} (hw : walkOwn env v (dropDot field) = pure found) :
    (⟨v, []⟩ : Scope).find env field = pure found := by
  have hplain : v.unwrapped.Plain := by rwa [Value.unwrapped_plain hv]
  have hlocal := resolveLocal_walk env hplain h hw
  by_cases hd : ∃ r, field = '.' :: r
  · obtain ⟨r, rfl⟩ := hd
    have hr : Key.Dotted r := h
    rw [find_own env _ hr.flush.1]
    exact hlocal
  · have hany : ∀ r, field ≠ '.' :: r := fun r hr => hd ⟨r, hr⟩
    rw [dropDot_of_ne hany] at hlocal
    rw [find_any env _ hany, resolveFirst, hlocal, pure_bind]
    cases found <;> rfl

/-- The field of a key is the same to a frame of data and to a node of it. -/
theorem resolveAfresh_ownField {v : Value} {fields : List (String × Value)}
    (hv : v.WrappedAs (.object fields)) {field : List Char} (h : Key.Simple field) :
    FindAlike ((⟨v, []⟩ : Scope).resolveAfresh env field) (ownField env fields field) := by
  have hframe : ∀ {a b}, (⟨v, []⟩ : Scope).find env field = pure a →
      Option.Rel Value.WrappedAs a b → (⟨v, []⟩ : Scope).resolveAfresh env field = pure a :=
    fun hf hab => resolveAfresh_data env hf (rel_plain hab).1
  rcases h with rfl | h
  · exact ⟨some v, some (.object fields), hframe rfl (.some hv), rfl, .some hv⟩
  · obtain ⟨a, b, ha, hb, hab⟩ := walkOwn_wrapped env h hv
    refine ⟨a, b, hframe (find_alone env hv.plain h ha) hab, ?_, hab⟩
    rw [ownField, if_neg (by simpa using h.flush.1)]
    exact hb

end Scope

namespace Context

variable {v : Value} {field : List Char} {found : Option Value}
  (h : (⟨v, []⟩ : Scope).resolveAfresh env field = pure found)
include h

theorem root_resolve (s : σ) : ((root v).resolve env (String.ofList field) s).1 = found := by
  have hs : (root v).scope = ⟨v, []⟩ := rfl
  rw [resolve, within, hs, String.toList_ofList, Scope.resolve_eq]
  simp only [root, List.lookup_nil, h]
  rfl

theorem root_lookup (hstandard : env.formatters = Standard.formatters) {key : String}
    (hk : Text.trim key.toList = key.toList) (hf : field = (Key.parse key.toList).field) (s : σ) :
    ((root v).lookup env key s).1 =
      Standard.formatters.run (Key.parse key.toList).steps (found.getD .null) := by
  subst hf
  have hs : (root v).scope = ⟨v, []⟩ := rfl
  have hr : ((⟨v, []⟩ : Scope).resolve env (Key.parse key.toList).field [] s).1.1 = found := by
    rw [Scope.resolve_eq]
    simp only [List.lookup_nil, h]
    rfl
  rw [lookup, within, hs, Scope.lookup_eq env _ hk, ← hr]
  simp only [hstandard, Host.run_standard]
  rfl

end Context

namespace Wrapping

theorem wrap_object (w : Wrapping) (fields : List (String × Value)) {depth : Nat}
    (h : 1 ≤ depth) :
    ∃ ns, w.wrap depth (.object fields) = .node ⟨w.number, []⟩ w.owner ns := by
  obtain ⟨d, rfl⟩ := Nat.exists_eq_add_of_le' h
  exact ⟨w.wrapFields [] d 0 fields, by rw [wrap, wrapAt]⟩

/-- A wrapped object that is asked for a readable key answers what a lookup of the key
in the object gives, formatters and malformed steps included. It never fails, and it
has no answer exactly if nothing is to be formatted and the field is not found. -/
theorem answers_lookup (w : Wrapping) (hf : env.formatters = Standard.formatters)
    (hw : env.registry w.owner = Standard.formatters) {fields : List (String × Value)}
    (hd : (Value.object fields).Plain) {depth : Nat} (hdepth : 1 ≤ depth) {key : String}
    (hk : Key.Readable key) (s : σ) :
    ∃ get answer, ask? env (w.wrap depth (.object fields)) key.toList = some get ∧
      get s = (.ok answer, s) ∧
      (answer = none ↔ (Key.parse key.toList).steps = [] ∧
        ((Context.root (.object fields)).resolve env
          (String.ofList (Key.parse key.toList).field) s).1 = none) ∧
      (answer.getD .null).toJson = ((Context.root (.object fields)).lookup env key s).1.toJson ∧
      (answer.getD .null).display =
        ((Context.root (.object fields)).lookup env key s).1.display := by
  obtain ⟨ns, hn⟩ := w.wrap_object fields hdepth
  have hwrap : (Value.object fields).WrappedAs (.object ns) := by
    have := w.wrappedAs depth hd
    rw [hn] at this
    exact ⟨this.plain, this.eq⟩
  obtain ⟨a, b, ha, hb, hab⟩ := Scope.resolveAfresh_ownField env hwrap hk.simple
  have hwalk : walk env (w.wrap depth (.object fields)) (some key.toList) =
      pure (if (Key.parse key.toList).steps.isEmpty then b
        else some (Standard.formatters.run (Key.parse key.toList).steps (b.getD .null))) := by
    rw [hn, walk_ownField, hb, pure_bind, formatted_data env hw _ _ (rel_plain hab).2]
  have hrun := Standard.run_through (Key.parse_plain key.toList) (Value.WrappedAs.orNull hab)
  have hask : ask? env (w.wrap depth (.object fields)) key.toList =
      some (do return .ok (← walk env (w.wrap depth (.object fields)) (some key.toList))) := by
    rw [hn]
    rfl
  rw [Context.root_resolve env ha, Context.root_lookup env ha hf hk.trimmed rfl, hrun.eq,
    Value.toJson_unwrapped, Value.display_unwrapped]
  refine ⟨_, _, hask, by rw [hwalk]; rfl, ?_⟩
  cases (Key.parse key.toList).steps with
  | nil =>
    refine ⟨?_, rfl, rfl⟩
    cases hab <;> simp
  | cons step steps => exact ⟨by simp, rfl, rfl⟩

/-- A field inside of an inner node, with a step that is no formatter and one that is
not closed, and a field that is missing. -/
theorem answers_lookup_malformed :
    let env : Env Unit := ⟨.plain, Standard.formatters⟩
    let data : List (String × Value) := [("a", .object [("b", .array [.string "x", .int 2])])]
    let w : Wrapping := ⟨0, .engine⟩
    env.formatters = Standard.formatters ∧ env.registry w.owner = Standard.formatters ∧
    (Value.object data).Plain ∧ 1 ≤ 2 ∧
    ∀ key ∈ [".a.b |nope|| join('|'", "a.c"], Key.Readable key ∧
      ∃ get answer, ask? env (w.wrap 2 (.object data)) key.toList = some get ∧
        get () = (.ok answer, ()) ∧
        (answer = none ↔ (Key.parse key.toList).steps = [] ∧
          ((Context.root (.object data)).resolve env
            (String.ofList (Key.parse key.toList).field) ()).1 = none) ∧
        (answer.getD .null).toJson = ((Context.root (.object data)).lookup env key ()).1.toJson ∧
        (answer.getD .null).display =
          ((Context.root (.object data)).lookup env key ()).1.display := by
  intro env data w
  have hd : (Value.object data).Plain := by
    simp [data, Value.Plain, Value.PlainItems, Value.PlainFields]
  have hkeys : ∀ key ∈ [".a.b |nope|| join('|'", "a.c"], Key.Readable key := by
    rw [List.forall_mem_cons, List.forall_mem_singleton]
    exact ⟨⟨by decide +kernel, by decide +kernel⟩, ⟨by decide +kernel, by decide +kernel⟩⟩
  exact ⟨rfl, rfl, hd, by decide, fun key hkey =>
    ⟨hkeys key hkey, answers_lookup env w rfl rfl hd (by decide) (hkeys key hkey) ()⟩⟩

end Wrapping

end Stencil
