import Mathlib.Data.List.Nodup
import Mathlib.Data.Set.Insert
import Mathlib.Logic.Function.Basic

/-!
# `Lib.Custody` — things that are free or held

Holders take free things, keep them in a list and give them back from the front of it. `Custody free held`
says that **nothing is in two places**: no list names a thing twice, no two lists share one, and what is held
is not free. The rules say which moves keep it; `Custody.count_eq_one` is what it is for.
-/

universe u v

variable {α : Type u} {ι : Type v}

/-- What is in `held i` is in no other list, only once in this one, and not free. -/
structure Custody (free : Set α) (held : ι → List α) : Prop where
  nodup : ∀ i, (held i).Nodup
  apart : ∀ {i j x}, x ∈ held i → x ∈ held j → i = j
  away  : ∀ {i x}, x ∈ held i → x ∉ free

namespace Custody

variable {free free' : Set α} {held : ι → List α} {i : ι} {x : α} {xs : List α}

/-- Nobody holds anything. -/
theorem start (free : Set α) : Custody free (fun _ : ι => ([] : List α)) :=
  ⟨fun _ => List.nodup_nil, fun h => absurd h List.not_mem_nil, fun h => absurd h List.not_mem_nil⟩

/-- What is free may change as long as nothing held becomes free. -/
theorem of_free (h : Custody free held) (hfree : ∀ y ∈ free', y ∉ free → ∀ j, y ∉ held j) :
    Custody free' held := by
  refine ⟨h.nodup, h.apart, fun {j y} hy hfree' => ?_⟩
  exact hfree y hfree' (h.away hy) j hy

/-- Free things may disappear. -/
theorem mono (h : Custody free held) (hsub : free' ⊆ free) : Custody free' held :=
  h.of_free (fun _ hy hno => absurd (hsub hy) hno)

/-- Something nobody holds may become free. -/
theorem add (h : Custody free held) (hno : ∀ j, x ∉ held j) : Custody (insert x free) held := by
  refine h.of_free (fun y hy hfree => ?_)
  rcases Set.mem_insert_iff.mp hy with rfl | hy
  · exact hno
  · exact absurd hy hfree

variable [DecidableEq ι]

theorem mem_update {j : ι} {y : α} : y ∈ Function.update held i xs j ↔ if j = i then y ∈ xs else y ∈ held j := by
  rw [Function.update_apply]
  split <;> rfl

/-- A holder may let go of things. -/
theorem sublist (h : Custody free held) (hsub : xs.Sublist (held i)) :
    Custody free (Function.update held i xs) := by
  have hmem : ∀ {j y}, y ∈ Function.update held i xs j → y ∈ held j := fun {j y} hy => by
    rw [mem_update] at hy
    split at hy
    · next hj => rw [hj]; exact hsub.subset hy
    · exact hy
  refine ⟨fun j => ?_, fun hj hk => h.apart (hmem hj) (hmem hk), fun hj => h.away (hmem hj)⟩
  by_cases hj : j = i
  · rw [hj, Function.update_self]; exact (h.nodup i).sublist hsub
  · rw [Function.update_of_ne hj]; exact h.nodup j

/-- **A holder takes something free.** -/
theorem take (h : Custody free held) (hx : x ∈ free) :
    Custody (free \ {x}) (Function.update held i (held i ++ [x])) := by
  have hno : ∀ j, x ∉ held j := fun j hj => h.away hj hx
  have hmem : ∀ {j y}, y ∈ Function.update held i (held i ++ [x]) j → y ∈ held j ∨ (j = i ∧ y = x) := by
    intro j y hy
    rw [mem_update] at hy
    split at hy
    · next hj =>
        rcases List.mem_append.mp hy with hy | hy
        · exact .inl (hj ▸ hy)
        · exact .inr ⟨hj, List.mem_singleton.mp hy⟩
    · exact .inl hy
  refine ⟨fun j => ?_, fun {j k y} hj hk => ?_, fun {j y} hj hfree => ?_⟩
  · by_cases hj : j = i
    · rw [hj, Function.update_self, ← List.concat_eq_append]
      exact (h.nodup i).concat (hno i)
    · rw [Function.update_of_ne hj]; exact h.nodup j
  · rcases hmem hj with hj | ⟨hji, hyx⟩ <;> rcases hmem hk with hk | ⟨hki, hyx'⟩
    · exact h.apart hj hk
    · exact absurd (hyx' ▸ hj) (hno j)
    · exact absurd (hyx ▸ hk) (hno k)
    · rw [hji, hki]
  · rcases hmem hj with hj | ⟨-, rfl⟩
    · exact h.away hj hfree.1
    · exact hfree.2 rfl

/-- **A holder gives back the first thing it holds.** -/
theorem giveBack (h : Custody free held) (hi : held i = x :: xs) :
    Custody (insert x free) (Function.update held i xs) := by
  have hnodup := h.nodup i
  rw [hi, List.nodup_cons] at hnodup
  have hsub : xs.Sublist (held i) := by rw [hi]; exact List.sublist_cons_self x xs
  refine (h.sublist hsub).add (fun j hj => ?_)
  rw [mem_update] at hj
  split at hj
  · exact hnodup.1 hj
  · next hne => exact hne (h.apart hj (by rw [hi]; exact List.mem_cons_self))

/-! ## In any order

Holders that do not keep their things in the order they came. -/

variable {held' : ι → List α}

/-- A holder gets something nobody holds. -/
theorem receive (h : Custody free held) (hno : ∀ j, x ∉ held j) (hfree : x ∉ free)
    (hi : (held' i).Perm (x :: held i)) (hrest : ∀ j, j ≠ i → held' j = held j) : Custody free held' := by
  have hmem : ∀ {j y}, y ∈ held' j → (j = i ∧ y = x) ∨ y ∈ held j := by
    intro j y hy
    by_cases hj : j = i
    · subst hj
      rcases List.mem_cons.mp (hi.mem_iff.mp hy) with hyx | hy
      · exact .inl ⟨rfl, hyx⟩
      · exact .inr hy
    · rw [hrest j hj] at hy
      exact .inr hy
  refine ⟨fun j => ?_, fun {j k y} hj hk => ?_, fun {j y} hj => ?_⟩
  · by_cases hj : j = i
    · rw [hj, hi.nodup_iff]
      exact List.nodup_cons.mpr ⟨hno i, h.nodup i⟩
    · rw [hrest j hj]
      exact h.nodup j
  · rcases hmem hj with ⟨hji, rfl⟩ | hj <;> rcases hmem hk with ⟨hki, hyx⟩ | hk
    · rw [hji, hki]
    · exact absurd hk (hno k)
    · exact absurd (hyx ▸ hj) (hno j)
    · exact h.apart hj hk
  · rcases hmem hj with ⟨-, rfl⟩ | hj
    · exact hfree
    · exact h.away hj

/-- A holder lets something go, and then nobody holds it. -/
theorem release (h : Custody free held) (hi : (held i).Perm (x :: held' i))
    (hrest : ∀ j, j ≠ i → held' j = held j) : Custody free held' ∧ ∀ j, x ∉ held' j := by
  have hmem : ∀ {j y}, y ∈ held' j → y ∈ held j := by
    intro j y hy
    by_cases hj : j = i
    · subst hj
      exact hi.mem_iff.mpr (List.mem_cons_of_mem x hy)
    · rwa [hrest j hj] at hy
  have hnodup := hi.nodup_iff.mp (h.nodup i)
  refine ⟨⟨fun j => ?_, fun hj hk => h.apart (hmem hj) (hmem hk), fun hj => h.away (hmem hj)⟩, fun j hj => ?_⟩
  · by_cases hj : j = i
    · rw [hj]
      exact (List.nodup_cons.mp hnodup).2
    · rw [hrest j hj]
      exact h.nodup j
  · have hji : j = i := h.apart (hmem hj) (hi.mem_iff.mpr List.mem_cons_self)
    rw [hji] at hj
    exact (List.nodup_cons.mp hnodup).1 hj

omit [DecidableEq ι] in
/-- Letting go brings nothing new. -/
theorem exists_mem_of_release (hi : (held i).Perm (x :: held' i)) (hrest : ∀ j, j ≠ i → held' j = held j) {k : ι}
    {y : α} (hy : y ∈ held' k) : ∃ l, y ∈ held l := by
  by_cases hki : k = i
  · subst hki
    exact ⟨k, hi.mem_iff.mpr (List.mem_cons_of_mem x hy)⟩
  · rw [hrest k hki] at hy
    exact ⟨k, hy⟩

omit [DecidableEq ι] in
/-- Nor does a move. -/
theorem exists_mem_of_move {j : ι} (hi : (held i).Perm (x :: held' i)) (hj : (held' j).Perm (x :: held j))
    (hrest : ∀ k, k ≠ i → k ≠ j → held' k = held k) {k : ι} {y : α} (hy : y ∈ held' k) : ∃ l, y ∈ held l := by
  by_cases hki : k = i
  · subst hki
    exact ⟨k, hi.mem_iff.mpr (List.mem_cons_of_mem x hy)⟩
  by_cases hkj : k = j
  · subst hkj
    rcases List.mem_cons.mp (hj.mem_iff.mp hy) with rfl | hy
    · exact ⟨i, hi.mem_iff.mpr List.mem_cons_self⟩
    · exact ⟨k, hy⟩
  · rw [hrest k hki hkj] at hy
    exact ⟨k, hy⟩

/-- **Something moves from one holder to another.** -/
theorem move {j : ι} (h : Custody free held) (hij : j ≠ i) (hi : (held i).Perm (x :: held' i))
    (hj : (held' j).Perm (x :: held j)) (hrest : ∀ k, k ≠ i → k ≠ j → held' k = held k) : Custody free held' := by
  have hbetween : ∀ k, k ≠ j → held' k = Function.update held i (held' i) k := by
    intro k hk
    by_cases hki : k = i
    · rw [hki, Function.update_self]
    · rw [Function.update_of_ne hki, hrest k hki hk]
  have hgone : Custody free (Function.update held i (held' i)) ∧ ∀ k, x ∉ Function.update held i (held' i) k :=
    h.release (by rw [Function.update_self]; exact hi) (fun k hk => Function.update_of_ne hk _ _)
  have hfree : x ∉ free := h.away (hi.mem_iff.mpr List.mem_cons_self)
  exact hgone.1.receive hgone.2 hfree (by rw [Function.update_of_ne hij]; exact hj) hbetween

end Custody

/-- **Whatever is held is held once, by one holder.** -/
theorem Custody.count_eq_one [DecidableEq α] {free : Set α} {held : ι → List α} (h : Custody free held) {i : ι}
    {x : α} (hx : x ∈ held i) : (held i).count x = 1 ∧ ∀ j, x ∈ held j → j = i :=
  ⟨List.count_eq_one_of_mem (h.nodup i) hx, fun _ hj => h.apart hj hx⟩
