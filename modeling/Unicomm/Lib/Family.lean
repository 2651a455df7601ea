import Mathlib.Data.Fintype.Card
import Mathlib.Algebra.Order.BigOperators.Group.Finset

/-!
# `Lib.Family` — how many members of a family are at a position

A finite family `f : ι → α` gives each thread its position. `count p f` is the number of threads whose
position satisfies `p`, and `total g f` the sum of what `g` says of each; one of them moving changes it by what
that one contributes (`count_update`, `total_update`). `first?` finds the only thread that has something.
-/

namespace Family

variable {ι α : Type*}

/-- What holds of all others, and of the one that moves where it moves to. -/
theorem forall_update_of_ne [DecidableEq ι] {P : α → Prop} {f : ι → α} {i : ι} {a : α} (h : ∀ j, j ≠ i → P (f j))
    (ha : P a) : ∀ j, P (Function.update f i a j) := by
  intro j
  rw [Function.update_apply]
  split
  · exact ha
  · next hj => exact h j hj

/-- What holds of every member, and of the one that moves where it moves to. -/
theorem forall_update [DecidableEq ι] {P : α → Prop} {f : ι → α} {i : ι} {a : α} (h : ∀ j, P (f j)) (ha : P a) :
    ∀ j, P (Function.update f i a j) := forall_update_of_ne (fun j _ => h j) ha

variable [Fintype ι]

section Total

variable {M : Type*} [AddCommMonoid M]

/-- What the members contribute together. -/
def total (g : α → M) (f : ι → α) : M := ∑ i, g (f i)

/-- One member moving takes its old contribution away and adds the new one. -/
theorem total_update [DecidableEq ι] (g : α → M) (f : ι → α) (i : ι) (a : α) :
    total g (Function.update f i a) + g (f i) = total g f + g a := by
  have hsplit : ∀ f : ι → α, total g f = (∑ j ∈ Finset.univ.erase i, g (f j)) + g (f i) :=
    fun f => (Finset.sum_erase_add _ _ (Finset.mem_univ i)).symm
  have hothers : ∑ j ∈ Finset.univ.erase i, g (Function.update f i a j) = ∑ j ∈ Finset.univ.erase i, g (f j) :=
    Finset.sum_congr rfl (fun j hj => by rw [Function.update_of_ne (Finset.ne_of_mem_erase hj)])
  rw [hsplit, hsplit f, hothers, Function.update_self, add_right_comm]

/-- Members that contribute nothing. -/
theorem total_eq_zero {g : α → M} {f : ι → α} (h : ∀ i, g (f i) = 0) : total g f = 0 :=
  Finset.sum_eq_zero (fun i _ => h i)

end Total

/-- The number of members that satisfy `p`. -/
def count (p : α → Bool) (f : ι → α) : Nat := ∑ i, (p (f i)).toNat

/-- One member moving changes the count by itself. -/
theorem count_update [DecidableEq ι] (p : α → Bool) (f : ι → α) (i : ι) (a : α) :
    count p (Function.update f i a) + (p (f i)).toNat = count p f + (p a).toNat :=
  total_update (fun x => (p x).toNat) f i a

/-- The count is positive as soon as some member satisfies `p`. -/
theorem count_pos {p : α → Bool} {f : ι → α} {i : ι} (h : p (f i) = true) : 0 < count p f :=
  Finset.sum_pos' (fun _ _ => Nat.zero_le _) ⟨i, Finset.mem_univ i, by rw [h]; decide⟩

/-- The count is zero when nobody satisfies `p`. -/
theorem count_eq_zero {p : α → Bool} {f : ι → α} (h : ∀ i, p (f i) = false) : count p f = 0 :=
  Finset.sum_eq_zero (fun i _ => by rw [h i, Bool.toNat_false])

theorem count_const {p : α → Bool} {a : α} (ha : p a = false) : count p (fun _ : ι => a) = 0 :=
  count_eq_zero (fun _ => ha)

/-- Some member satisfies `p` as soon as the count is positive. -/
theorem exists_of_count_pos {p : α → Bool} {f : ι → α} (h : 0 < count p f) : ∃ i, p (f i) = true := by
  by_contra hno
  have hzero : count p f = 0 := count_eq_zero (fun i => Bool.eq_false_iff.mpr (fun hi => hno ⟨i, hi⟩))
  omega

/-! ## The one member that has something -/

section First

variable {N : Nat} {f : Fin N → Option α}

/-- What the first member that has something has. -/
def first? (f : Fin N → Option α) : Option α := (List.finRange N).findSome? f

theorem first?_eq_none : first? f = none ↔ ∀ i, f i = none := by
  rw [first?, List.findSome?_eq_none_iff]
  exact ⟨fun h i => h i (List.mem_finRange i), fun h i _ => h i⟩

theorem exists_of_first? {a : α} (h : first? f = some a) : ∃ i, f i = some a := by
  obtain ⟨i, -, hi⟩ := List.exists_of_findSome?_eq_some h
  exact ⟨i, hi⟩

/-- When the others have nothing, it is what that one has. -/
theorem first?_eq {i : Fin N} (h : ∀ j, j ≠ i → f j = none) : first? f = f i := by
  cases hi : f i with
  | none =>
      refine first?_eq_none.mpr (fun j => ?_)
      by_cases hj : j = i
      · rw [hj, hi]
      · exact h j hj
  | some a =>
      obtain ⟨xs, ys, hsplit⟩ := List.append_of_mem (List.mem_finRange i)
      have hnodup := List.nodup_finRange N
      rw [hsplit, List.nodup_append] at hnodup
      have hfront : xs.findSome? f = none := by
        rw [List.findSome?_eq_none_iff]
        exact fun j hj => h j (fun he => hnodup.2.2 j hj i List.mem_cons_self he)
      rw [first?, hsplit, List.findSome?_append, hfront, Option.none_or, List.findSome?_cons, hi]

end First

end Family
