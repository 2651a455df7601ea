import Mathlib.Data.List.Sort

/-!
# `Lib.PriorityQueue` — a stable priority queue as a sorted list

Elements of equal priority leave in the order they came; higher priorities leave first. `push` puts an
element behind every element of its own or a higher priority, the place `std::upper_bound` finds in a list
sorted by decreasing priority.

The two facts everything else rests on: `push` adds one element and changes nothing else (`push_perm`), and
seen through **one** priority it is an append (`filter_push`). `Conserved` is what they give for a queue in
use: everything pushed has either been handed over or is still in the queue, once, and nothing overtakes an
element of its own priority.
-/

namespace PriorityQueue

variable {α : Type*} (prio : α → Nat)

/-- Insert behind everything whose priority is at least the element's. -/
def push (x : α) : List α → List α
  | []     => [x]
  | y :: q => if prio x ≤ prio y then y :: push x q else x :: y :: q

/-- Decreasing priority from front to back. -/
def Sorted (q : List α) : Prop := q.Pairwise (fun x y => prio y ≤ prio x)

theorem push_perm (x : α) (q : List α) : (push prio x q).Perm (x :: q) := by
  induction q with
  | nil => exact .refl _
  | cons y q ih =>
      rw [push]
      split
      · exact (ih.cons y).trans (.swap x y q)
      · exact .refl _

@[simp] theorem mem_push {x y : α} {q : List α} : y ∈ push prio x q ↔ y = x ∨ y ∈ q := by
  rw [(push_perm prio x q).mem_iff, List.mem_cons]

/-- **The order survives a push.** -/
theorem Sorted.push {x : α} {q : List α} (h : Sorted prio q) : Sorted prio (push prio x q) := by
  induction q with
  | nil => exact List.pairwise_singleton _ _
  | cons y q ih =>
      obtain ⟨hy, hq⟩ := List.pairwise_cons.mp h
      rw [PriorityQueue.push]
      split
      · next hle =>
          refine List.pairwise_cons.mpr ⟨fun z hz => ?_, ih hq⟩
          rcases (mem_push prio).mp hz with rfl | hz
          · exact hle
          · exact hy z hz
      · next hgt =>
          refine List.pairwise_cons.mpr ⟨fun z hz => ?_, h⟩
          rcases List.mem_cons.mp hz with rfl | hz
          · omega
          · have := hy z hz; omega

/-- **Within one priority a push is an append.** -/
theorem filter_push {x : α} {q : List α} (h : Sorted prio q) (p : Nat) :
    (push prio x q).filter (fun y => prio y = p)
      = q.filter (fun y => prio y = p) ++ [x].filter (fun y => prio y = p) := by
  induction q with
  | nil => rfl
  | cons y q ih =>
      obtain ⟨hy, hq⟩ := List.pairwise_cons.mp h
      rw [push]
      split
      · rw [List.filter_cons, List.filter_cons, ih hq]
        split <;> rfl
      · next hgt =>
          by_cases hxp : prio x = p
          · -- what follows has a smaller priority than `x`
            have hnone : (y :: q).filter (fun z => prio z = p) = [] := by
              rw [List.filter_eq_nil_iff]
              intro z hz
              rcases List.mem_cons.mp hz with rfl | hz
              · simp; omega
              · have := hy z hz; simp; omega
            rw [List.filter_cons, hnone]
            simp [hxp]
          · rw [List.filter_cons]
            simp [hxp]

/-- An element that is not of higher priority than the front goes in behind the front. -/
theorem push_cons_of_le {x y : α} (q : List α) (h : prio x ≤ prio y) :
    push prio x (y :: q) = y :: push prio x q := if_pos h

/-! ## A queue in use -/

/-- What was pushed is what was handed over and what is still queued, and within one priority it is so in
    order. -/
structure Conserved (pushed handed queue : List α) : Prop where
  sorted : Sorted prio queue
  perm   : (handed ++ queue).Perm pushed
  order  : ∀ p, handed.filter (fun x => prio x = p) ++ queue.filter (fun x => prio x = p)
             = pushed.filter (fun x => prio x = p)

namespace Conserved

variable {prio} {pushed handed queue : List α}

theorem empty : Conserved prio ([] : List α) [] [] :=
  ⟨.nil, .refl _, fun _ => rfl⟩

/-- A push keeps it. -/
theorem push (h : Conserved prio pushed handed queue) (x : α) :
    Conserved prio (pushed ++ [x]) handed (PriorityQueue.push prio x queue) where
  sorted := h.sorted.push prio
  perm   := by
    have hmove : (handed ++ x :: queue).Perm (handed ++ queue ++ [x]) := by
      have hswap : ([x] ++ queue).Perm (queue ++ [x]) := List.perm_append_comm
      rw [List.append_assoc]
      exact hswap.append_left handed
    exact ((push_perm prio x queue).append_left handed).trans (hmove.trans (h.perm.append_right [x]))
  order p := by
    rw [filter_push prio h.sorted, ← List.append_assoc, h.order p, List.filter_append]

/-- Handing over the front keeps it. -/
theorem pop {x : α} (h : Conserved prio pushed handed (x :: queue)) :
    Conserved prio pushed (handed ++ [x]) queue where
  sorted := (List.pairwise_cons.mp h.sorted).2
  perm   := by rw [List.append_assoc, List.singleton_append]; exact h.perm
  order p := by
    rw [← h.order p, List.filter_append, List.append_assoc, ← List.filter_append, List.singleton_append]

end Conserved

end PriorityQueue
