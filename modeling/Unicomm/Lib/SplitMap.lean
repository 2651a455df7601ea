import Std.Data.ExtTreeMap
import Mathlib.Data.List.Basic

/-!
# `Lib.SplitMap` — one map kept in two parts

Two finite maps that have no key in common stand for one: `join p r` is what they are together. Entries wander from
one part to the other, which the whole does not see (`join_move`, `join_moveBack`, `join_all`); what the whole is
asked for, its lookups, its size, its entries, can be had from the parts (`getElem?_join`, `size_join`).

`insertAll` is the range insertion the parts are merged with: what is there already stays.
-/

namespace SplitMap

open Std (ExtTreeMap)

variable {K V : Type*} [Ord K] [Std.TransOrd K] [Std.LawfulEqOrd K]

/-- Insert every entry of `s` whose key is not there. -/
def insertAll (t s : ExtTreeMap K V compare) : ExtTreeMap K V compare :=
  s.foldl (fun t k v => t.insertIfNew k v) t

theorem getElem?_insertIfNew {t : ExtTreeMap K V compare} {k k' : K} {v : V} :
    (t.insertIfNew k v)[k']? = t[k']?.or (if compare k k' = .eq then some v else none) := by
  rw [ExtTreeMap.getElem?_insertIfNew]
  by_cases hk : k = k'
  · subst hk
    cases hget : t[k]? with
    | none   => simp [ExtTreeMap.mem_iff_isSome_getElem?, hget]
    | some w => simp [ExtTreeMap.mem_iff_isSome_getElem?, hget]
  · simp [hk]

/-- The first entry for a key wins, and what was there before wins over all of them. -/
theorem getElem?_foldl_insertIfNew (es : List (K × V)) (t : ExtTreeMap K V compare) (k : K) :
    (es.foldl (fun t e => t.insertIfNew e.1 e.2) t)[k]?
      = t[k]?.or ((es.find? (fun e => compare e.1 k == .eq)).map Prod.snd) := by
  induction es generalizing t with
  | nil => simp
  | cons e es ih =>
      rw [List.foldl_cons, ih, getElem?_insertIfNew, List.find?_cons, Option.or_assoc]
      by_cases hk : compare e.1 k = .eq
      · simp [hk]
      · rw [if_neg hk, beq_eq_false_iff_ne.mpr hk, Option.none_or]

theorem find?_toList (s : ExtTreeMap K V compare) (k : K) :
    (s.toList.find? (fun e => compare e.1 k == .eq)).map Prod.snd = s[k]? := by
  cases hget : s[k]? with
  | none =>
      have hno : k ∉ s := by simp [ExtTreeMap.mem_iff_isSome_getElem?, hget]
      rw [ExtTreeMap.find?_toList_eq_none_iff_not_mem.mpr hno, Option.map_none]
  | some v =>
      have hmem : k ∈ s := by simp [ExtTreeMap.mem_iff_isSome_getElem?, hget]
      have hkey : s.getKey? k = some k := ExtTreeMap.getKey?_eq_some hmem
      rw [ExtTreeMap.find?_toList_eq_some_iff_getKey?_eq_some_and_getElem?_eq_some.mpr ⟨hkey, hget⟩,
        Option.map_some]

/-- **A range insertion does not overwrite.** -/
theorem getElem?_insertAll (t s : ExtTreeMap K V compare) (k : K) : (insertAll t s)[k]? = t[k]?.or s[k]? := by
  unfold insertAll
  rw [ExtTreeMap.foldl_eq_foldl_toList, getElem?_foldl_insertIfNew, find?_toList]

omit [Std.LawfulEqOrd K] in
/-- Different keys, none of which is there, are all inserted. -/
theorem size_foldl_insertIfNew {es : List (K × V)} (hdistinct : es.Pairwise (fun a b => ¬ compare a.1 b.1 = .eq))
    {t : ExtTreeMap K V compare} (hnew : ∀ e ∈ es, e.1 ∉ t) :
    (es.foldl (fun t e => t.insertIfNew e.1 e.2) t).size = t.size + es.length := by
  induction es generalizing t with
  | nil => rfl
  | cons e es ih =>
      obtain ⟨hne, hdistinct'⟩ := List.pairwise_cons.mp hdistinct
      have he : e.1 ∉ t := hnew e List.mem_cons_self
      have hnew' : ∀ e' ∈ es, e'.1 ∉ t.insertIfNew e.1 e.2 := by
        intro e' he'
        rw [ExtTreeMap.mem_insertIfNew]
        exact fun h => h.elim (hne e' he') (hnew e' (List.mem_cons_of_mem e he'))
      rw [List.foldl_cons, ih hdistinct' hnew', ExtTreeMap.size_insertIfNew, if_neg he, List.length_cons]
      omega

/-! ## Two parts of one map -/

/-- No key in common. -/
def Apart (p r : ExtTreeMap K V compare) : Prop := ∀ k, k ∈ p → k ∉ r

/-- What two parts are together. -/
def join (p r : ExtTreeMap K V compare) : ExtTreeMap K V compare := insertAll r p

variable {p r : ExtTreeMap K V compare} {k : K} {v : V}

theorem getElem?_join (p r : ExtTreeMap K V compare) (k : K) : (join p r)[k]? = r[k]?.or p[k]? :=
  getElem?_insertAll r p k

theorem mem_join : k ∈ join p r ↔ k ∈ p ∨ k ∈ r := by
  simp only [ExtTreeMap.mem_iff_isSome_getElem?, getElem?_join, Option.isSome_or, Bool.or_eq_true]
  exact or_comm

omit [Std.LawfulEqOrd K] in
/-- A key of one part is looked up there. -/
theorem Apart.getElem?_eq_none (h : Apart p r) (hk : k ∈ p) : r[k]? = none :=
  ExtTreeMap.getElem?_eq_none (h k hk)

omit [Std.LawfulEqOrd K] in
/-- It does not matter which part is looked at first. -/
theorem Apart.or_comm (h : Apart p r) (k : K) : p[k]?.or r[k]? = r[k]?.or p[k]? := by
  by_cases hk : k ∈ p
  · rw [h.getElem?_eq_none hk, Option.or_none, Option.none_or]
  · rw [ExtTreeMap.getElem?_eq_none hk, Option.or_none, Option.none_or]

/-- **The sizes of the parts add up.** -/
theorem size_join (h : Apart p r) : (join p r).size = p.size + r.size := by
  unfold join insertAll
  rw [ExtTreeMap.foldl_eq_foldl_toList, size_foldl_insertIfNew ExtTreeMap.distinct_keys_toList,
    ExtTreeMap.length_toList, Nat.add_comm]
  intro e he
  have hget : p[e.1]? = some e.2 := ExtTreeMap.mem_toList_iff_getElem?_eq_some.mp he
  exact h e.1 (by simp [ExtTreeMap.mem_iff_isSome_getElem?, hget])

theorem isEmpty_join (p r : ExtTreeMap K V compare) : (join p r).isEmpty = (p.isEmpty && r.isEmpty) := by
  rw [Bool.eq_iff_iff, Bool.and_eq_true]
  simp only [ExtTreeMap.isEmpty_iff, ExtTreeMap.eq_empty_iff_forall_not_mem, mem_join, not_or, forall_and]

@[simp] theorem join_empty : join (∅ : ExtTreeMap K V compare) ∅ = ∅ := by
  apply ExtTreeMap.ext_getElem?
  intro k
  simp [getElem?_join]

/-- Inserting into one part inserts into the whole. -/
theorem join_insert : join (p.insertIfNew k v) r = (join p r).insertIfNew k v := by
  apply ExtTreeMap.ext_getElem?
  intro k'
  rw [getElem?_join, getElem?_insertIfNew, getElem?_insertIfNew, getElem?_join, Option.or_assoc]

/-- Erasing from both parts erases from the whole. -/
theorem join_erase : join (p.erase k) (r.erase k) = (join p r).erase k := by
  apply ExtTreeMap.ext_getElem?
  intro k'
  simp only [getElem?_join, ExtTreeMap.getElem?_erase]
  split <;> rfl

/-- **An entry changes sides** and the whole is the same. -/
theorem join_move (h : Apart p r) (hp : p[k]? = some v) : join (p.erase k) (r.insertIfNew k v) = join p r := by
  apply ExtTreeMap.ext_getElem?
  intro k'
  simp only [getElem?_join, getElem?_insertIfNew, ExtTreeMap.getElem?_erase]
  by_cases hk : k = k'
  · subst hk
    have hr : r[k]? = none := h.getElem?_eq_none (by simp [ExtTreeMap.mem_iff_isSome_getElem?, hp])
    simp [hp, hr]
  · simp [hk]

/-- And back. -/
theorem join_moveBack (h : Apart p r) (hr : r[k]? = some v) :
    join (p.insertIfNew k v) (r.erase k) = join p r := by
  apply ExtTreeMap.ext_getElem?
  intro k'
  simp only [getElem?_join, getElem?_insertIfNew, ExtTreeMap.getElem?_erase]
  by_cases hk : k = k'
  · subst hk
    have hp : p[k]? = none := by
      apply ExtTreeMap.getElem?_eq_none
      intro hmem
      rw [h.getElem?_eq_none hmem] at hr
      cases hr
    simp [hp, hr]
  · simp [hk]

/-- **Everything goes back** to the first part. -/
theorem join_all (h : Apart p r) : join (insertAll p r) ∅ = join p r := by
  apply ExtTreeMap.ext_getElem?
  intro k
  rw [getElem?_join, getElem?_insertAll, getElem?_join, h.or_comm]
  simp

/-! ## The parts stay apart -/

omit [Std.LawfulEqOrd K] in
theorem Apart.empty_right : Apart p ∅ := fun _ _ h => by simp at h

theorem Apart.insert (h : Apart p r) (hr : k ∉ r) : Apart (p.insertIfNew k v) r := by
  intro k' hk'
  rcases ExtTreeMap.mem_insertIfNew.mp hk' with hk | hk
  · rw [← Std.LawfulEqCmp.eq_of_compare hk]
    exact hr
  · exact h k' hk

omit [Std.LawfulEqOrd K] in
theorem Apart.erase (h : Apart p r) : Apart (p.erase k) (r.erase k) :=
  fun k' hk' hr => h k' (ExtTreeMap.mem_of_mem_erase hk') (ExtTreeMap.mem_of_mem_erase hr)

omit [Std.LawfulEqOrd K] in
theorem Apart.move (h : Apart p r) : Apart (p.erase k) (r.insertIfNew k v) := by
  intro k' hk' hr
  obtain ⟨hne, hk'⟩ := ExtTreeMap.mem_erase.mp hk'
  exact (ExtTreeMap.mem_insertIfNew.mp hr).elim hne (h k' hk')

omit [Std.LawfulEqOrd K] in
theorem Apart.moveBack (h : Apart p r) : Apart (p.insertIfNew k v) (r.erase k) := by
  intro k' hk' hr
  obtain ⟨hne, hr⟩ := ExtTreeMap.mem_erase.mp hr
  exact (ExtTreeMap.mem_insertIfNew.mp hk').elim hne (fun hk' => h k' hk' hr)

end SplitMap
