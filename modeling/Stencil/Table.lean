/-!
# Tables

Association lists in the order of their keys, one entry a key.
-/

set_option autoImplicit false

namespace Stencil.Table

variable {α : Type}

def put (k : String) (v : α) : List (String × α) → List (String × α)
  | [] => [(k, v)]
  | (j, w) :: r => if k = j then (k, v) :: r else if k < j then (k, v) :: (j, w) :: r
    else (j, w) :: put k v r

def ofList (es : List (String × α)) : List (String × α) :=
  es.foldl (fun t e => put e.1 e.2 t) []

def get? (k : String) : List (String × α) → Option α
  | [] => none
  | (j, w) :: r => if k = j then some w else get? k r

def keys (t : List (String × α)) : List String := t.map Prod.fst

theorem get?_put_self (k : String) (v : α) (t : List (String × α)) :
    get? k (put k v t) = some v := by
  induction t with
  | nil => simp [put, get?]
  | cons e t ih =>
    obtain ⟨j, w⟩ := e
    by_cases h : k = j
    · simp [put, get?, h]
    · by_cases hl : k < j <;> simp [put, get?, h, hl, ih]

theorem get?_put_of_ne {j k : String} (hne : j ≠ k) (v : α) (t : List (String × α)) :
    get? j (put k v t) = get? j t := by
  induction t with
  | nil => simp [put, get?, hne]
  | cons e t ih =>
    obtain ⟨i, w⟩ := e
    by_cases h : k = i
    · subst h; simp [put, get?, hne]
    · by_cases hl : k < i
      · simp [put, get?, h, hl, hne]
      · by_cases hj : j = i <;> simp [put, get?, h, hl, hj, ih]

theorem mem_of_get? {k : String} {t : List (String × α)} {v : α} (h : get? k t = some v) :
    (k, v) ∈ t := by
  induction t with
  | nil => cases h
  | cons f t ih =>
    obtain ⟨j, w⟩ := f
    rw [get?] at h
    split at h
    · next hk =>
      cases h
      rw [hk]
      exact List.mem_cons_self ..
    · exact List.mem_cons_of_mem _ (ih h)

theorem mem_put {k : String} {v : α} {t : List (String × α)} {e : String × α}
    (h : e ∈ put k v t) : e = (k, v) ∨ e ∈ t := by
  induction t with
  | nil => exact .inl (List.mem_singleton.1 h)
  | cons f t ih =>
    obtain ⟨j, w⟩ := f
    rw [put] at h
    split at h
    · exact (List.mem_cons.1 h).imp id (List.mem_cons_of_mem _)
    · split at h
      · exact List.mem_cons.1 h
      · rcases List.mem_cons.1 h with rfl | h
        · exact .inr (List.mem_cons_self ..)
        · exact (ih h).imp id (List.mem_cons_of_mem _)

end Stencil.Table
