import Mathlib.Data.List.Basic
import Std.Data.ExtTreeMap

/-!
# `Lib.SortedMap` — a `std::map` as the list of its entries

Where a map is part of a recursive data type it has to be a list: the entries in ascending order of their keys.
`set` is `m[k] = a`. What a map holds is what its lookups give (`Sorted.ext`), and entries that are set in ascending
order end up as they came (`setAll_nil`): this is why a map can be written out in order and read back.

A `std::multimap` is such a list too, with several entries for one key; `add` is its `insert`, and entries that are
added in order end up as they came (`addAll_eq_append`).
-/

namespace SortedMap

variable {κ α : Type} [Ord κ]

/-- The keys ascend, so no key is there twice. -/
def Sorted (m : List (κ × α)) : Prop := m.Pairwise (fun x y => compare x.1 y.1 = .lt)

/-- The value of a key. -/
def get? (k : κ) : List (κ × α) → Option α
  | []     => none
  | e :: m => if compare k e.1 = .eq then some e.2 else get? k m

/-- Set the value of a key. -/
def set (k : κ) (a : α) : List (κ × α) → List (κ × α)
  | []     => [(k, a)]
  | e :: m =>
      match compare k e.1 with
      | .lt => (k, a) :: e :: m
      | .eq => (k, a) :: m
      | .gt => e :: set k a m

/-- Set the entries of a list, one after the other. -/
def setAll (m xs : List (κ × α)) : List (κ × α) := xs.foldl (fun m e => set e.1 e.2 m) m

variable [Std.TransOrd κ] [Std.LawfulEqOrd κ] {k k' : κ} {a : α} {m m' xs : List (κ × α)}

omit [Std.LawfulEqOrd κ] in
theorem lt_of_gt {x y : κ} (h : compare x y = .gt) : compare y x = .lt := Std.OrientedCmp.gt_iff_lt.mp h

omit [Std.TransOrd κ] [Std.LawfulEqOrd κ] in
/-- What is set is there, or was there before. -/
theorem mem_set {e : κ × α} (h : e ∈ set k a m) : e = (k, a) ∨ e ∈ m := by
  induction m with
  | nil => exact .inl (List.mem_singleton.mp h)
  | cons x m ih =>
      unfold set at h
      split at h
      · exact (List.mem_cons.mp h).imp_right (fun h => h)
      · exact (List.mem_cons.mp h).imp_right (List.mem_cons_of_mem x)
      · rcases List.mem_cons.mp h with rfl | h
        · exact .inr List.mem_cons_self
        · exact (ih h).imp_right (List.mem_cons_of_mem x)

/-- **The order survives.** -/
theorem Sorted.set (h : Sorted m) (k : κ) (a : α) : Sorted (set k a m) := by
  induction m with
  | nil => exact List.pairwise_singleton _ _
  | cons x m ih =>
      obtain ⟨hx, hm⟩ := List.pairwise_cons.mp h
      unfold SortedMap.set
      split
      · next hlt =>
          refine List.pairwise_cons.mpr ⟨fun e he => ?_, h⟩
          rcases List.mem_cons.mp he with rfl | he
          · exact hlt
          · exact Std.TransCmp.lt_trans hlt (hx e he)
      · next heq =>
          rw [← Std.LawfulEqCmp.eq_of_compare heq] at hx
          exact List.pairwise_cons.mpr ⟨hx, hm⟩
      · next hgt =>
          refine List.pairwise_cons.mpr ⟨fun e he => ?_, ih hm⟩
          rcases mem_set he with rfl | he
          · exact lt_of_gt hgt
          · exact hx e he

theorem Sorted.setAll (h : Sorted m) (xs : List (κ × α)) : Sorted (setAll m xs) := by
  induction xs generalizing m with
  | nil => exact h
  | cons x xs ih => exact ih (h.set x.1 x.2)

/-! ## Lookups -/

omit [Std.TransOrd κ] in
theorem get?_set_self (k : κ) (a : α) (m : List (κ × α)) : get? k (set k a m) = some a := by
  induction m with
  | nil => exact if_pos Std.ReflCmp.compare_self
  | cons x m ih =>
      unfold set
      split
      · exact if_pos Std.ReflCmp.compare_self
      · exact if_pos Std.ReflCmp.compare_self
      · next hgt =>
          unfold get?
          rw [if_neg (by rw [hgt]; decide), ih]

omit [Std.TransOrd κ] in
theorem get?_set_of_ne (h : k' ≠ k) : get? k' (set k a m) = get? k' m := by
  have hne : compare k' k ≠ .eq := fun heq => h (Std.LawfulEqCmp.eq_of_compare heq)
  induction m with
  | nil => exact if_neg hne
  | cons x m ih =>
      unfold set
      split
      · exact if_neg hne
      · next heq =>
          rw [Std.LawfulEqCmp.eq_of_compare heq] at hne
          have hkey : compare k' k ≠ .eq := by rw [Std.LawfulEqCmp.eq_of_compare heq]; exact hne
          unfold get?
          rw [if_neg hkey, if_neg hne]
      · unfold get?
        rw [ih]

omit [Std.TransOrd κ] in
/-- What is found is there. -/
theorem mem_of_get? (h : get? k m = some a) : (k, a) ∈ m := by
  induction m with
  | nil => cases h
  | cons x m ih =>
      unfold get? at h
      split at h
      · next heq =>
          cases h
          rw [Std.LawfulEqCmp.eq_of_compare heq]
          exact List.mem_cons_self
      · exact List.mem_cons_of_mem x (ih h)

omit [Std.TransOrd κ] [Std.LawfulEqOrd κ] in
/-- A key that comes before all others is not there. -/
theorem get?_eq_none_of_lt (h : ∀ e ∈ m, compare k e.1 = .lt) : get? k m = none := by
  induction m with
  | nil => rfl
  | cons x m ih =>
      unfold get?
      rw [if_neg (by rw [h x List.mem_cons_self]; decide)]
      exact ih (fun e he => h e (List.mem_cons_of_mem x he))

/-- **A map is what its lookups give.** -/
theorem Sorted.ext (h : Sorted m) (h' : Sorted m') (hget : ∀ k, get? k m = get? k m') : m = m' := by
  induction m generalizing m' with
  | nil =>
      cases m' with
      | nil => rfl
      | cons y m' =>
          have hy := hget y.1
          simp [get?] at hy
  | cons x m ih =>
      obtain ⟨hx, hm⟩ := List.pairwise_cons.mp h
      cases m' with
      | nil =>
          have hy := hget x.1
          simp [get?] at hy
      | cons y m' =>
          obtain ⟨hy, hm'⟩ := List.pairwise_cons.mp h'
          have hself : ∀ z : κ × α, ∀ n, get? z.1 (z :: n) = some z.2 := fun z n => if_pos Std.ReflCmp.compare_self
          cases hxy : compare x.1 y.1 with
          | lt =>
              have hnone : get? x.1 (y :: m') = none := get?_eq_none_of_lt (fun e he => by
                rcases List.mem_cons.mp he with rfl | he
                · exact hxy
                · exact Std.TransCmp.lt_trans hxy (hy e he))
              rw [← hget, hself] at hnone
              cases hnone
          | gt =>
              have hyx := lt_of_gt hxy
              have hnone : get? y.1 (x :: m) = none := get?_eq_none_of_lt (fun e he => by
                rcases List.mem_cons.mp he with rfl | he
                · exact hyx
                · exact Std.TransCmp.lt_trans hyx (hx e he))
              rw [hget, hself] at hnone
              cases hnone
          | eq =>
              have hkey := Std.LawfulEqCmp.eq_of_compare hxy
              have hvalue := hget x.1
              rw [hself, hkey, hself] at hvalue
              have hhead : x = y := Prod.ext hkey (Option.some.inj hvalue)
              subst hhead
              rw [ih hm hm' (fun k => ?_)]
              by_cases hk : compare k x.1 = .eq
              · rw [Std.LawfulEqCmp.eq_of_compare hk, get?_eq_none_of_lt hx, get?_eq_none_of_lt hy]
              · have hrest := hget k
                unfold get? at hrest
                rwa [if_neg hk, if_neg hk] at hrest

omit [Std.TransOrd κ] in
/-- What is set last counts. -/
theorem get?_setAll (h : Sorted xs) (k : κ) (m : List (κ × α)) :
    get? k (setAll m xs) = (get? k xs).or (get? k m) := by
  induction xs generalizing m with
  | nil => rfl
  | cons x xs ih =>
      obtain ⟨hx, hxs⟩ := List.pairwise_cons.mp h
      have hrest := ih hxs (set x.1 x.2 m)
      change get? k (setAll (set x.1 x.2 m) xs) = _
      rw [hrest]
      by_cases hk : compare k x.1 = .eq
      · have hkey := Std.LawfulEqCmp.eq_of_compare hk
        subst hkey
        rw [get?_eq_none_of_lt hx, get?_set_self, get?, if_pos Std.ReflCmp.compare_self]
        rfl
      · rw [get?_set_of_ne (fun he => hk (by rw [he]; exact Std.ReflCmp.compare_self)), get?, if_neg hk]

/-- **Entries that are set in ascending order end up as they came.** -/
theorem setAll_nil (h : Sorted xs) : setAll [] xs = xs :=
  (Sorted.setAll List.Pairwise.nil xs).ext h (fun k => by rw [get?_setAll h]; exact Option.or_none)

/-- One entry may be there from the start, if none of the others has its key. -/
theorem setAll_singleton (h : Sorted xs) (hno : get? k xs = none) : setAll [(k, a)] xs = set k a xs := by
  refine (Sorted.setAll (List.pairwise_singleton _ _) xs).ext (h.set k a) (fun k' => ?_)
  rw [get?_setAll h]
  by_cases hk : k' = k
  · subst hk
    rw [hno, get?_set_self]
    exact if_pos Std.ReflCmp.compare_self
  · have hne : get? k' [(k, a)] = none := if_neg (fun heq => hk (Std.LawfulEqCmp.eq_of_compare heq))
    rw [get?_set_of_ne hk, hne, Option.or_none]

/-! ## Some of the entries, other values -/

omit [Std.TransOrd κ] in
/-- A lookup after every value was changed. -/
theorem get?_map {β : Type} (f : κ × α → β) (k : κ) (m : List (κ × α)) :
    get? k (m.map (fun e => (e.1, f e))) = (get? k m).map (fun a => f (k, a)) := by
  induction m with
  | nil => rfl
  | cons x m ih =>
      rw [List.map_cons]
      unfold get?
      split
      · next heq =>
          rw [Std.LawfulEqCmp.eq_of_compare heq]
          rfl
      · exact ih

omit [Std.TransOrd κ] in
/-- Entries that are picked by their keys. -/
theorem get?_filter (q : κ → Bool) (k : κ) (m : List (κ × α)) :
    get? k (m.filter (fun e => q e.1)) = if q k then get? k m else none := by
  induction m with
  | nil => exact (ite_self _).symm
  | cons x m ih =>
      by_cases hx : q x.1
      · rw [List.filter_cons_of_pos (p := fun e : κ × α => q e.1) hx]
        unfold get?
        rw [ih]
        by_cases hk : compare k x.1 = .eq
        · rw [if_pos hk, if_pos hk, Std.LawfulEqCmp.eq_of_compare hk, if_pos hx]
        · rw [if_neg hk, if_neg hk]
      · rw [List.filter_cons_of_neg (p := fun e : κ × α => q e.1) hx, ih]
        by_cases hk : compare k x.1 = .eq
        · rw [Std.LawfulEqCmp.eq_of_compare hk, if_neg hx, if_neg hx]
        · conv_rhs => unfold get?
          rw [if_neg hk]

omit [Std.TransOrd κ] [Std.LawfulEqOrd κ] in
theorem Sorted.filter (h : Sorted m) (p : κ × α → Bool) : Sorted (m.filter p) := List.Pairwise.filter p h

omit [Std.TransOrd κ] [Std.LawfulEqOrd κ] in
theorem Sorted.map {β : Type} (h : Sorted m) {f : κ × α → κ × β} (hf : ∀ e, (f e).1 = e.1) : Sorted (m.map f) := by
  refine List.pairwise_map.mpr (h.imp (fun {x y} hxy => ?_))
  rw [hf, hf]
  exact hxy

/-! ## Several entries for one key -/

/-- Add an entry behind those whose keys are not greater. -/
def add (k : κ) (a : α) : List (κ × α) → List (κ × α)
  | []     => [(k, a)]
  | e :: m => if compare k e.1 = .lt then (k, a) :: e :: m else e :: add k a m

/-- Add the entries of a list, one after the other. -/
def addAll (m xs : List (κ × α)) : List (κ × α) := xs.foldl (fun m e => add e.1 e.2 m) m

/-- The keys do not descend. -/
def Ascending (m : List (κ × α)) : Prop := m.Pairwise (fun x y => compare y.1 x.1 ≠ .lt)

omit [Std.TransOrd κ] [Std.LawfulEqOrd κ] in
/-- The greatest key comes last. -/
theorem add_eq_append (h : ∀ e ∈ m, compare k e.1 ≠ .lt) : add k a m = m ++ [(k, a)] := by
  induction m with
  | nil => rfl
  | cons x m ih =>
      unfold add
      rw [if_neg (h x List.mem_cons_self), ih (fun e he => h e (List.mem_cons_of_mem x he)), List.cons_append]

omit [Std.TransOrd κ] [Std.LawfulEqOrd κ] in
/-- **Entries that are added in order end up as they came.** -/
theorem addAll_eq_append (h : Ascending (m ++ xs)) : addAll m xs = m ++ xs := by
  induction xs generalizing m with
  | nil => exact (List.append_nil m).symm
  | cons x xs ih =>
      have hlast : ∀ e ∈ m, compare x.1 e.1 ≠ .lt := fun e he =>
        (List.pairwise_append.mp h).2.2 e he x List.mem_cons_self
      have hadd : add x.1 x.2 m = m ++ [x] := add_eq_append hlast
      have happ : m ++ x :: xs = m ++ [x] ++ xs := List.append_cons m x xs
      show addAll (add x.1 x.2 m) xs = _
      rw [hadd, happ]
      rw [happ] at h
      exact ih h

end SortedMap
