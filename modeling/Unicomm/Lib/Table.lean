import Std.Data.ExtTreeMap
import Mathlib.Logic.Function.Basic

/-!
# `Lib.Table` — the entry of a key after an update

What an update of a finite map does to the entry of a key, said with the equality of keys instead of their order, and
the same for the slots of a family of optional values.
-/

namespace Table

open Std (ExtTreeMap)

section

variable {K V : Type*} [Ord K] [Std.TransOrd K] [Std.LawfulEqOrd K] [DecidableEq K] {t : ExtTreeMap K V compare}
  {k k' : K} {v : V}

theorem getElem?_insert : (t.insert k v)[k']? = if k = k' then some v else t[k']? := by
  simp only [ExtTreeMap.getElem?_insert, Std.compare_eq_iff_eq]

theorem getElem?_erase : (t.erase k)[k']? = if k = k' then none else t[k']? := by
  simp only [ExtTreeMap.getElem?_erase, Std.compare_eq_iff_eq]

theorem getElem?_insertIfNew (hnew : k ∉ t) : (t.insertIfNew k v)[k']? = if k = k' then some v else t[k']? := by
  simp only [ExtTreeMap.getElem?_insertIfNew, Std.compare_eq_iff_eq, hnew, not_false_eq_true, and_true]

/-- The entry of a key that was new is the one inserted. -/
theorem getD_insertIfNew (hnew : k ∉ t) {w : V} : (t.insertIfNew k v).getD k w = v := by
  rw [ExtTreeMap.getD_eq_getD_getElem?, getElem?_insertIfNew hnew, if_pos rfl, Option.getD_some]

omit [DecidableEq K] in
/-- An insertion under a key that is there changes nothing. -/
theorem insertIfNew_of_mem (hold : k ∈ t) : t.insertIfNew k v = t := by
  refine ExtTreeMap.ext_getElem? fun l => ?_
  rw [ExtTreeMap.getElem?_insertIfNew, if_neg (fun h => h.2 hold)]

theorem contains_insert : (t.insert k v).contains k' = (decide (k = k') || t.contains k') := by
  rw [ExtTreeMap.contains_insert]
  by_cases hk : k = k' <;> simp [hk]

theorem contains_erase : (t.erase k).contains k' = (!decide (k = k') && t.contains k') := by
  rw [ExtTreeMap.contains_erase]
  by_cases hk : k = k' <;> simp [hk]

end

section

variable {ι α : Type*} [DecidableEq ι] {f : ι → Option α} {i j : ι} {x y : α}

/-- What is left after something is taken away was there before. -/
theorem of_update_none (h : Function.update f i none j = some x) : j ≠ i ∧ f j = some x := by
  by_cases hji : j = i
  · rw [hji, Function.update_self] at h
    cases h
  · rw [Function.update_of_ne hji] at h
    exact ⟨hji, h⟩

/-- What is there after something is put in a slot is that, or was there before. -/
theorem of_update_some (h : Function.update f i (some x) j = some y) : (j = i ∧ y = x) ∨ (j ≠ i ∧ f j = some y) := by
  by_cases hji : j = i
  · rw [hji, Function.update_self] at h
    exact .inl ⟨hji, (Option.some.inj h).symm⟩
  · rw [Function.update_of_ne hji] at h
    exact .inr ⟨hji, h⟩

/-- What is put in a free slot replaces nothing. -/
theorem update_of_free (hfree : f i = none) (h : f j = some y) (o : Option α) : Function.update f i o j = some y := by
  have hji : j ≠ i := by
    rintro rfl
    rw [hfree] at h
    cases h
  rw [Function.update_of_ne hji, h]

end

end Table
