import Mathlib.Data.Nat.Digits.Lemmas

/-!
# `Lib.Digits` — the low digits of a number, a fixed number of them

`lowDigits b n v` are the `n` lowest digits of `v` in base `b`, least significant first, zeros included: what a
writer of fixed-size fields puts down. Reading them back (`Nat.ofDigits`) gives `v` modulo `b ^ n`, and on digit
sequences of length `n` the two directions are inverse to each other.
-/

namespace Digits

/-- The `n` lowest digits of `v` in base `b`, least significant first. -/
def lowDigits (b n v : ℕ) : List ℕ := (List.range n).map (fun i => v / b ^ i % b)

@[simp] theorem length_lowDigits (b n v : ℕ) : (lowDigits b n v).length = n := by
  simp [lowDigits]

theorem lowDigits_succ (b n v : ℕ) : lowDigits b (n + 1) v = lowDigits b n v ++ [v / b ^ n % b] := by
  rw [lowDigits, List.range_succ, List.map_append]
  rfl

theorem lowDigits_lt {b : ℕ} (hb : 0 < b) (n v : ℕ) : ∀ d ∈ lowDigits b n v, d < b := by
  intro d hd
  obtain ⟨i, _, rfl⟩ := List.mem_map.mp hd
  exact Nat.mod_lt _ hb

/-- The low digits carry the number modulo `b ^ n`. -/
theorem ofDigits_lowDigits (b n v : ℕ) : Nat.ofDigits b (lowDigits b n v) = v % b ^ n := by
  induction n with
  | zero => simp [lowDigits, Nat.mod_one]
  | succ n ih =>
      rw [lowDigits_succ, Nat.ofDigits_append, ih, length_lowDigits, Nat.ofDigits_singleton, Nat.mod_pow_succ]

/-- The low digits of a number written with `n` digits are these digits. -/
theorem lowDigits_ofDigits {b : ℕ} (hb : 1 < b) {L : List ℕ} (hL : ∀ d ∈ L, d < b) :
    lowDigits b L.length (Nat.ofDigits b L) = L := by
  have hlt : Nat.ofDigits b L < b ^ L.length := Nat.ofDigits_lt_base_pow_length hb hL
  -- two digit sequences of one length and one value are equal
  apply Nat.ofDigits_inj_of_len_eq hb (length_lowDigits b _ _) (lowDigits_lt (by omega) _ _) hL
  rw [ofDigits_lowDigits, Nat.mod_eq_of_lt hlt]

end Digits
