import Stencil.Format.Standard
import Stencil.Proofs.Value.Unwrapped

/-!
# Standard formatters and wrapped data

To the standard formatters a node is the object it wraps: from data and from the same
data wrapped they make the same, where what they hand on may again have nodes.
-/

set_option autoImplicit false

namespace Stencil

namespace Table

variable {α : Type}

theorem mem_ofList {es : List (String × α)} {e : String × α} (h : e ∈ ofList es) : e ∈ es := by
  have hfold : ∀ (es t : List (String × α)),
      e ∈ es.foldl (fun t e => put e.1 e.2 t) t → e ∈ es ∨ e ∈ t := by
    intro es
    induction es with
    | nil => exact fun _ => .inr
    | cons f es ih =>
      intro t h
      rcases ih _ h with h | h
      · exact .inl (List.mem_cons_of_mem _ h)
      · exact (mem_put h).imp (fun he => by rw [he]; exact List.mem_cons_self ..) id
  exact (hfold es [] h).resolve_right List.not_mem_nil

theorem forall_ofList {p : String × α → Prop} {es : List (String × α)} (h : ∀ e ∈ es, p e) :
    ∀ e ∈ ofList es, p e :=
  fun e he => h e (mem_ofList he)

end Table

theorem Formatters.forall_ofFunctions {p : Formatter → Prop} {es : List (String × Formatter)}
    (h : ∀ e ∈ es, p e.2) : ∀ e ∈ (ofFunctions es).entries, ∃ f, e.2 = .function f ∧ p f := by
  refine Table.forall_ofList fun e he => ?_
  obtain ⟨e, hmem, rfl⟩ := List.mem_map.1 he
  exact ⟨e.2, rfl, h e hmem⟩

def Formatter.SeesThrough (f : Formatter) : Prop :=
  ∀ ⦃v n args⦄, v.WrappedAs n → (∀ a ∈ args, a.Plain) → (f v args).WrappedAs (f n args)

theorem Formatter.SeesThrough.of_eq {f : Formatter} (h : ∀ n args, f n.unwrapped args = f n args)
    (hp : ∀ n args, (f n args).Plain) : f.SeesThrough := by
  rintro v n args ⟨-, rfl⟩ -
  rw [h]
  exact .refl (hp n args)

namespace Standard

theorem onText_eq (f : List Char → List Char) (v : Value) (args : List Value) :
    onText f v args =
      if v.isNull then .null else .string (String.ofList (f v.display.toList)) := by
  cases v <;> rfl

theorem truncate_eq (v : Value) (args : List Value) :
    truncate v args =
      if v.isNull then .null
      else if v.display.length ≤ natArg args 0 50 then .string v.display
      else .string (String.ofList (v.display.toList.take (natArg args 0 50)) ++
        textArg args 1 "...") := by
  cases v <;> rfl

theorem onText_through (f : List Char → List Char) : (onText f).SeesThrough := by
  refine .of_eq (fun n args => ?_) fun n args => ?_
  · rw [onText_eq, onText_eq, Value.isNull_unwrapped, Value.display_unwrapped]
  · rw [onText_eq]
    split <;> exact trivial

theorem truncate_through : Formatter.SeesThrough truncate := by
  refine .of_eq (fun n args => ?_) fun n args => ?_
  · rw [truncate_eq, truncate_eq, Value.isNull_unwrapped, Value.display_unwrapped]
  · rw [truncate_eq]
    split
    · exact trivial
    · split <;> exact trivial

theorem yesno_through : Formatter.SeesThrough yesno := by
  refine .of_eq (fun n args => ?_) fun n args => trivial
  rw [yesno, yesno, Value.truthy_unwrapped]

theorem pluralize_through : Formatter.SeesThrough pluralize := by
  refine .of_eq (fun n args => ?_) fun n args => trivial
  rw [pluralize, pluralize, Value.number?_unwrapped]

theorem lengthOf_unwrapped (v : Value) : lengthOf v.unwrapped = lengthOf v := by
  cases v with
  | array items => rw [Value.unwrapped, lengthOf, lengthOf, Value.unwrappedItems_eq, List.length_map]
  | object fields => rw [Value.unwrapped, lengthOf, lengthOf, Value.unwrappedFields_length]
  | node id owner fields => rw [Value.unwrapped, lengthOf, lengthOf, Value.unwrappedFields_length]
  | _ => rfl

theorem length_plain (v : Value) : (length v).Plain := by
  fun_induction length v with
  | case1 id props v ih => exact ih
  | case2 v h => exact trivial

theorem length_through : Formatter.SeesThrough fun v _ => length v := by
  refine .of_eq (fun n args => ?_) fun n args => length_plain n
  cases n with
  | array items => exact congrArg Value.count (lengthOf_unwrapped (.array items))
  | object fields => exact congrArg Value.count (lengthOf_unwrapped (.object fields))
  | node id owner fields => exact congrArg Value.count (lengthOf_unwrapped (.node id owner fields))
  | _ => rfl

theorem json_through : Formatter.SeesThrough fun v _ => .string v.jsonText := by
  refine .of_eq (fun n args => ?_) fun n args => trivial
  rw [Value.jsonText_unwrapped]

theorem onNumber_through {v n : Value} (h : v.WrappedAs n) (f : Float → List Char) :
    (onNumber v f).WrappedAs (onNumber n f) := by
  have hplain : ∀ v : Value, v.Plain → (onNumber v f).Plain := by
    intro v hv
    unfold onNumber
    split
    · exact hv
    · exact hv
    · exact trivial
  have heq := h.eq
  subst heq
  cases n with
  | array items => exact h
  | object fields => exact h
  | node id owner fields => exact h
  | _ => exact .refl (hplain _ h.plain)

theorem orElse_through : Formatter.SeesThrough orElse := by
  intro v n args h hargs
  have hdefault : (args.head?.getD .null).Plain := by
    cases args with
    | nil => exact trivial
    | cons a args => exact hargs a (List.mem_cons_self ..)
  have heq := h.eq
  subst heq
  cases n with
  | null => exact .refl hdefault
  | string s =>
    refine .refl ?_
    show (if s.isEmpty then args.head?.getD .null else .string s).Plain
    split
    · exact hdefault
    · exact trivial
  | _ => exact h

theorem join_through : Formatter.SeesThrough join := by
  intro v n args h _
  have heq := h.eq
  subst heq
  cases n with
  | array items =>
    have hshown : (Value.unwrappedItems items).map Value.display = items.map Value.display := by
      rw [Value.unwrappedItems_eq, List.map_map]
      exact List.map_congr_left fun v _ => Value.display_unwrapped v
    rw [Value.unwrapped, join, join, hshown]
    exact .refl trivial
  | _ => exact h

theorem rel_head? {vs ns : List Value} (h : List.Forall₂ Value.WrappedAs vs ns) :
    Option.Rel Value.WrappedAs vs.head? ns.head? := by
  cases h with
  | nil => exact .none
  | cons hv _ => exact .some hv

theorem first_through : Formatter.SeesThrough fun v _ => first v := by
  intro v n args h _
  have heq := h.eq
  subst heq
  cases n with
  | array items => exact .orNull (rel_head? h.items)
  | string s =>
    refine .refl ?_
    show Value.Plain (first (.string s))
    rw [first]
    split <;> exact trivial
  | _ => exact h

theorem last_through : Formatter.SeesThrough fun v _ => last v := by
  intro v n args h _
  have heq := h.eq
  subst heq
  cases n with
  | array items =>
    have hlast := rel_head? (List.forall₂_reverse_iff.2 h.items)
    rw [List.head?_reverse, List.head?_reverse] at hlast
    exact .orNull hlast
  | string s =>
    refine .refl ?_
    show Value.Plain (last (.string s))
    rw [last]
    split <;> exact trivial
  | _ => exact h

/-- Every standard formatter takes a node for the object it wraps. -/
theorem formatters_through :
    ∀ e ∈ formatters.entries, ∃ f : Formatter, e.2 = .function f ∧ f.SeesThrough := by
  refine Formatters.forall_ofFunctions ?_
  simp only [List.forall_mem_cons]
  exact ⟨onText_through _, onText_through _, onText_through _, onText_through _,
    onText_through _, onText_through _, onText_through _, onText_through _, truncate_through,
    orElse_through, fun _ _ _ h _ => onNumber_through h _, fun _ _ _ h _ => onNumber_through h _,
    fun _ _ _ h _ => onNumber_through h _, yesno_through, pluralize_through, length_through,
    json_through, join_through, first_through, last_through, nofun⟩

theorem apply_through (name : String) : Formatter.SeesThrough (formatters.apply name) := by
  intro v n args h hargs
  cases hr : formatters.get? name with
  | none =>
    simp only [Formatters.apply, hr]
    exact h
  | some r =>
    obtain ⟨f, rfl, hf⟩ := formatters_through _ (Table.mem_of_get? hr)
    simp only [Formatters.apply, hr]
    exact hf h hargs

/-- Steps whose arguments are data run alike on data and on its wrapped form. -/
theorem run_through {steps : List Step} (hs : ∀ s ∈ steps, ∀ a ∈ s.args, a.Plain) {v n : Value}
    (h : v.WrappedAs n) : (formatters.run steps v).WrappedAs (formatters.run steps n) := by
  induction steps generalizing v n with
  | nil => exact h
  | cons s steps ih =>
    rw [List.forall_mem_cons] at hs
    exact ih hs.2 (apply_through s.name h hs.1)

end Standard

end Stencil
