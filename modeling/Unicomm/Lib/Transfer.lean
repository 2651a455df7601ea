import Mathlib.Data.List.Basic

/-!
# `Lib.Transfer` — buffers that drain into one stream

Several buffers are transferred piece by piece into a stream; `rests` lists what each has left. When a piece
always comes from the **first** buffer that has something left, the stream followed by the rests does not change
(`flatten_set_drop`), so the stream is always a prefix of the buffers one after the other. `prefix_flatten_iff`
says what such a prefix looks like: whole buffers, then a part of the next.
-/

namespace Transfer

variable {α : Type*}

/-- Moving a piece of the first nonempty rest to the end of the stream changes nothing in sum. -/
theorem flatten_set_drop {rests : List (List α)} {i : Nat} {r : List α} (n : Nat) (hr : rests[i]? = some r)
    (hbefore : ∀ x ∈ rests.take i, x = []) :
    r.take n ++ (rests.set i (r.drop n)).flatten = rests.flatten := by
  induction rests generalizing i with
  | nil => cases hr
  | cons x rests ih =>
      cases i with
      | zero =>
          cases hr
          rw [List.set_cons_zero, List.flatten_cons, List.flatten_cons, ← List.append_assoc,
            List.take_append_drop]
      | succ i =>
          have hx : x = [] := hbefore x (by simp)
          rw [List.set_cons_succ, List.flatten_cons, List.flatten_cons, hx, List.nil_append, List.nil_append]
          exact ih hr (fun y hy => hbefore y (by rw [List.take_succ_cons]; exact List.mem_cons_of_mem x hy))

/-- A prefix of a concatenation is a number of whole lists and a prefix of the next one. -/
theorem prefix_flatten_iff {s : List α} {L : List (List α)} :
    s <+: L.flatten
      ↔ ∃ k p, s = (L.take k).flatten ++ p ∧ (p = [] ∨ ∃ b, L[k]? = some b ∧ p <+: b) := by
  constructor
  · intro h
    induction L generalizing s with
    | nil => exact ⟨0, [], by simpa using h, .inl rfl⟩
    | cons b L ih =>
        rw [List.flatten_cons] at h
        rcases List.prefix_or_prefix_of_prefix h (List.prefix_append b L.flatten) with hs | ⟨t, rfl⟩
        · exact ⟨0, s, rfl, .inr ⟨b, rfl, hs⟩⟩
        · obtain ⟨k, p, rfl, hp⟩ := ih ((List.prefix_append_right_inj b).mp h)
          exact ⟨k + 1, p, by rw [List.take_succ_cons, List.flatten_cons, List.append_assoc], hp⟩
  · rintro ⟨k, p, rfl, hp⟩
    have hsplit : L.flatten = (L.take k).flatten ++ (L.drop k).flatten := by
      rw [← List.flatten_append, List.take_append_drop]
    rw [hsplit, List.prefix_append_right_inj]
    rcases hp with rfl | ⟨b, hb, hp⟩
    · exact List.nil_prefix
    · have hdrop : L.drop k = b :: L.drop (k + 1) := by
        obtain ⟨hk, rfl⟩ := List.getElem?_eq_some_iff.mp hb
        exact List.drop_eq_getElem_cons hk
      rw [hdrop, List.flatten_cons]
      exact hp.trans (List.prefix_append b _)

end Transfer
