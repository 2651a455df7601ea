import Mathlib.Data.Nat.Digits.Lemmas

/-!
# `Lib.Decimal` — numbers in decimal notation

`write` puts down a number, most significant digit first, with no leading zeros; `read` is its inverse on what it puts
down (`read_write`).
-/

namespace Decimal

/-- The code of the digit zero. -/
def zero : ℕ := 0x30

/-- The digits of a number, most significant first; zero has one. -/
def write (n : ℕ) : List ℕ := if n = 0 then [zero] else (Nat.digits 10 n).reverse.map (zero + ·)

/-- The number that some digits stand for. -/
def read (s : List ℕ) : Option ℕ :=
  if s ≠ [] ∧ ∀ c ∈ s, zero ≤ c ∧ c < zero + 10 then some (Nat.ofDigits 10 (s.map (· - zero)).reverse) else none

theorem write_ne_nil (n : ℕ) : write n ≠ [] := by
  unfold write
  split
  · exact List.cons_ne_nil _ _
  · next hn =>
      intro h
      exact Nat.digits_ne_nil_iff_ne_zero.mpr hn (List.reverse_eq_nil_iff.mp (List.map_eq_nil_iff.mp h))

/-- What is put down are digits. -/
theorem digit_of_mem_write {n c : ℕ} (h : c ∈ write n) : zero ≤ c ∧ c < zero + 10 := by
  unfold write at h
  split at h
  · cases List.mem_singleton.mp h
    decide
  · obtain ⟨d, hd, rfl⟩ := List.mem_map.mp h
    have hlt := Nat.digits_lt_base (b := 10) (m := n) (by decide) (List.mem_reverse.mp hd)
    omega

/-- **What is put down is read.** -/
theorem read_write (n : ℕ) : read (write n) = some n := by
  have hdigits : write n ≠ [] ∧ ∀ c ∈ write n, zero ≤ c ∧ c < zero + 10 :=
    ⟨write_ne_nil n, fun c hc => digit_of_mem_write hc⟩
  unfold read
  rw [if_pos hdigits]
  unfold write
  split
  · next hn =>
      rw [hn]
      rfl
  · have hsub : ((Nat.digits 10 n).reverse.map (zero + ·)).map (· - zero) = (Nat.digits 10 n).reverse := by
      rw [List.map_map]
      refine (List.map_congr_left (fun d _ => ?_)).trans (List.map_id _)
      exact Nat.add_sub_cancel_left zero d
    rw [hsub, List.reverse_reverse, Nat.ofDigits_digits]

end Decimal
