import Mathlib.Data.List.Infix
import Mathlib.Data.List.DropRight

/-!
# `Lib.Search` — the first occurrence of a sequence in another

`find m s` is the first position of `s` where `m` stands. `find_eq_some_iff` says what that means, and
`find_append` that going on with `s` does not change an occurrence that was found.
-/

namespace Search

variable {α : Type*} [DecidableEq α]

/-- The first position where `m` stands. -/
def find (m : List α) : List α → Option Nat
  | []     => if m = [] then some 0 else none
  | a :: s => if m <+: a :: s then some 0 else (find m s).map (· + 1)

variable {m s t : List α} {i : Nat}

theorem find_of_starts (h : m <+: s) : find m s = some 0 := by
  cases s with
  | nil      => rw [find, if_pos (List.prefix_nil.mp h)]
  | cons a s => rw [find, if_pos h]

theorem find_cons_of_not_starts {a : α} (h : ¬ m <+: a :: s) : find m (a :: s) = (find m s).map (· + 1) := by
  rw [find, if_neg h]

/-- **Found is the first position where `m` stands.** -/
theorem find_eq_some_iff : find m s = some i ↔ m <+: s.drop i ∧ i ≤ s.length ∧ ∀ j, j < i → ¬ m <+: s.drop j := by
  induction s generalizing i with
  | nil =>
      rw [find]
      -- the empty pattern stands at the end of the string, any other one does not
      by_cases hm : m = []
      · rw [if_pos hm]
        constructor
        · rintro h
          cases h
          exact ⟨by simp [hm], Nat.le_refl _, fun j hj => absurd hj (Nat.not_lt_zero j)⟩
        · rintro ⟨-, hle, -⟩
          rw [Nat.le_zero.mp hle]
      · rw [if_neg hm]
        constructor
        · intro h
          cases h
        · rintro ⟨hpre, -, -⟩
          rw [List.drop_nil] at hpre
          exact absurd (List.prefix_nil.mp hpre) hm
  | cons a s ih =>
      by_cases hpre : m <+: a :: s
      · rw [find_of_starts hpre]
        constructor
        · intro h
          cases h
          exact ⟨hpre, Nat.zero_le _, fun j hj => absurd hj (Nat.not_lt_zero j)⟩
        · rintro ⟨-, -, hfirst⟩
          cases i with
          | zero   => rfl
          | succ i => exact absurd hpre (hfirst 0 (Nat.succ_pos i))
      · rw [find_cons_of_not_starts hpre]
        cases i with
        | zero => exact iff_of_false (by simp) (fun h => hpre h.1)
        | succ i =>
            -- a find further on is a find in the rest, one position earlier
            have hih : (find m s).map (· + 1) = some (i + 1) ↔ find m s = some i := by simp
            rw [hih, ih, List.drop_succ_cons, List.length_cons, Nat.succ_le_succ_iff]
            refine and_congr_right fun _ => and_congr_right fun _ => ?_
            constructor
            · intro h j hj
              cases j with
              | zero   => exact hpre
              | succ j => exact h j (Nat.lt_of_succ_lt_succ hj)
            · intro h j hj
              exact h (j + 1) (Nat.succ_lt_succ hj)

theorem find_eq_none_iff : find m s = none ↔ ¬ m <:+: s := by
  induction s with
  | nil => simp [find]
  | cons a s ih =>
      by_cases hpre : m <+: a :: s
      · rw [find_of_starts hpre]
        exact iff_of_false (by simp) (fun h => h hpre.isInfix)
      · rw [find_cons_of_not_starts hpre, Option.map_eq_none_iff, ih, List.infix_cons_iff, not_or]
        exact ⟨fun h => ⟨hpre, h⟩, fun h => h.2⟩

/-- What was found ends inside `s`. -/
theorem find_le (h : find m s = some i) : i + m.length ≤ s.length := by
  obtain ⟨hpre, hi, -⟩ := find_eq_some_iff.mp h
  have hlen := hpre.length_le
  rw [List.length_drop] at hlen
  omega

/-- **An occurrence stays found** when the sequence goes on. -/
theorem find_append (h : find m s = some i) (t : List α) : find m (s ++ t) = some i := by
  have hle := find_le h
  obtain ⟨hpre, hi, hfirst⟩ := find_eq_some_iff.mp h
  apply find_eq_some_iff.mpr
  refine ⟨?_, by rw [List.length_append]; omega, fun j hj hno => ?_⟩
  · rw [List.drop_append_of_le_length hi]
    exact hpre.trans (List.prefix_append _ t)
  · -- an earlier occurrence in the longer sequence would end inside `s`
    rw [List.drop_append_of_le_length (by omega)] at hno
    apply hfirst j hj
    refine List.prefix_of_prefix_length_le hno (List.prefix_append _ t) ?_
    rw [List.length_drop]
    omega

/-- **What is found while the sequence still comes in**: the same, as soon as it is there. -/
theorem find_of_isPrefix {b : List α} (hb : b <+: s) (h : find m s = some i) :
    find m b = if i + m.length ≤ b.length then some i else none := by
  obtain ⟨t, rfl⟩ := hb
  cases hfind : find m b with
  | some j =>
      have hj : j = i := Option.some.inj ((find_append hfind t).symm.trans h)
      subst hj
      exact (if_pos (find_le hfind)).symm
  | none =>
      refine (if_neg (fun hle => ?_)).symm
      obtain ⟨hpre, -, -⟩ := find_eq_some_iff.mp h
      rw [List.drop_append_of_le_length (by omega)] at hpre
      have hpre' : m <+: b.drop i := by
        refine List.prefix_of_prefix_length_le hpre (List.prefix_append _ t) ?_
        rw [List.length_drop]
        omega
      exact find_eq_none_iff.mp hfind (hpre'.isInfix.trans (List.drop_suffix i b).isInfix)

/-- Where nothing stands in front, the search goes on behind it. -/
theorem find_skip {u : List α} (h : ∀ j, j < u.length → ¬ m <+: (u ++ s).drop j) :
    find m (u ++ s) = (find m s).map (· + u.length) := by
  induction u with
  | nil => simp
  | cons a u ih =>
      have hrest : ∀ j, j < u.length → ¬ m <+: (u ++ s).drop j := fun j hj => h (j + 1) (Nat.succ_lt_succ hj)
      have hno : ¬ m <+: a :: (u ++ s) := h 0 (Nat.succ_pos _)
      rw [List.cons_append, find_cons_of_not_starts hno, ih hrest, Option.map_map]
      rfl

omit [DecidableEq α] in
/-- What begins with something that is not in `u` does not stand there. -/
theorem not_starts_of_notMem {a : α} {u : List α} (h : a ∉ u) (s : List α) {j : Nat} (hj : j < u.length) :
    ¬ (a :: m) <+: (u ++ s).drop j := by
  rw [List.drop_append_of_le_length (by omega), List.drop_eq_getElem_cons hj, List.cons_append, List.cons_prefix_cons]
  rintro ⟨rfl, -⟩
  exact h (List.getElem_mem hj)

/-- It is found where it stands behind `u`. -/
theorem find_behind {a : α} {u : List α} (h : a ∉ u) (hs : (a :: m) <+: s) :
    find (a :: m) (u ++ s) = some u.length := by
  rw [find_skip (fun j hj => not_starts_of_notMem h s hj), find_of_starts hs]
  exact congrArg some (Nat.zero_add _)

/-- Nothing is found later than where it stands. -/
theorem find_of_starts_drop (h : m <+: s.drop i) : ∃ j, find m s = some j ∧ j ≤ i := by
  cases hf : find m s with
  | none =>
      have hinfix : m <:+: s := h.isInfix.trans (List.drop_suffix i s).isInfix
      exact absurd hinfix (find_eq_none_iff.mp hf)
  | some j =>
      refine ⟨j, rfl, ?_⟩
      by_contra hlt
      exact (find_eq_some_iff.mp hf).2.2 i (by omega) h

end Search
