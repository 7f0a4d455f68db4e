/-
  File:      InvoiceOcr/Json/Dict.lean
  Subject:   WHAT A DICT HAS AT A KEY: after a new entry, `d[k] = v` and a selection of its keys.
             Nothing here names a program.
-/
import InvoiceOcr.Json.RoundTrip

namespace PyJson

variable {d : Dict} {k k' : Str} {v : Json}

theorem get?_cons_self : Dict.get? ((k, v) :: d) k = some v := by
  simp [Dict.get?]

theorem get?_cons_ne (h : k' ≠ k) : Dict.get? ((k', v) :: d) k = Dict.get? d k := by
  simp [Dict.get?, h]

theorem get?_isSome : (Dict.get? d k).isSome = true ↔ k ∈ Dict.keys d := by
  induction d with
  | nil => simp [Dict.get?, Dict.keys]
  | cons p d ih =>
    obtain ⟨k', v⟩ := p
    simp only [Dict.keys] at ih
    by_cases hk : k' = k
    · simp [Dict.get?, Dict.keys, hk]
    · have hk' : k ≠ k' := fun h => hk h.symm
      simp [Dict.get?, Dict.keys, hk, hk', ih]

theorem get?_eq_none : Dict.get? d k = none ↔ k ∉ Dict.keys d := by
  rw [← get?_isSome]
  cases Dict.get? d k <;> simp

theorem get?_set_self : Dict.get? (Dict.set d k v) k = some v := by
  induction d with
  | nil => exact get?_cons_self
  | cons p d ih =>
    obtain ⟨k', v'⟩ := p
    unfold Dict.set
    split
    · exact get?_cons_self
    · next hne => exact (get?_cons_ne hne).trans ih

theorem get?_set_ne (h : k' ≠ k) : Dict.get? (Dict.set d k' v) k = Dict.get? d k := by
  induction d with
  | nil => exact get?_cons_ne h
  | cons p d ih =>
    obtain ⟨k₀, v₀⟩ := p
    unfold Dict.set
    split
    · next heq => rw [get?_cons_ne h, get?_cons_ne (heq ▸ h)]
    · by_cases hk : k₀ = k
      · subst hk
        rw [get?_cons_self, get?_cons_self]
      · rw [get?_cons_ne hk, get?_cons_ne hk, ih]

/-- A key that is selected keeps its value. -/
theorem get?_filter {p : Str → Bool} (h : p k = true) :
    Dict.get? (d.filter fun kv => p kv.1) k = Dict.get? d k := by
  induction d with
  | nil => rfl
  | cons kv d ih =>
    obtain ⟨k', v'⟩ := kv
    by_cases hk : k' = k
    · subst hk
      simp only [List.filter_cons, h, if_true, get?_cons_self]
    · rw [get?_cons_ne hk, List.filter_cons]
      split
      · rw [get?_cons_ne hk, ih]
      · exact ih

/-- A key that is not selected is gone. -/
theorem get?_filter_none {p : Str → Bool} (h : p k = false) :
    Dict.get? (d.filter fun kv => p kv.1) k = none := by
  refine get?_eq_none.mpr fun hk => ?_
  obtain ⟨kv, hkv, rfl⟩ := List.mem_map.mp hk
  exact absurd (List.mem_filter.mp hkv).2 (by simp [h])

end PyJson
