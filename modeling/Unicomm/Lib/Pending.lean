import Unicomm.Lib.Machine

/-!
# `Lib.Pending` — something that is registered, then settled

The life of one entry of a table of pending things, as an automaton over **marks**: a registration makes it
pending (again), settling it needs it to be pending and ends that. A sequence of marks the automaton accepts
settles at most as often as it registers (`count_settle_le`), and after a settling nothing is pending until
the next registration (`not_pending_after_settle`).
-/

namespace Pending

/-- What can happen to one entry. -/
inductive Mark where
  | register
  | settle
  deriving DecidableEq, Repr

/-- The automaton: whether the entry is pending; settling something that is not is refused. -/
def step : Bool → Mark → Option Bool
  | _,     .register => some true
  | true,  .settle   => some false
  | false, .settle   => none

/-- **Settled at most as often as registered**, with the one that is still pending counted in. -/
theorem count_settle_le {b b' : Bool} {ms : List Mark} (h : Machine.run step b ms = some b') :
    ms.count .settle + b'.toNat ≤ ms.count .register + b.toNat := by
  induction ms generalizing b with
  | nil => cases h; exact Nat.le_refl _
  | cons m ms ih =>
      obtain ⟨b₁, hm, hrest⟩ := Machine.run_cons_eq_some.mp h
      have hle := ih hrest
      cases m with
      | register =>
          cases hm
          simp only [List.count_cons, Bool.toNat_true, beq_self_eq_true, if_true] at hle ⊢
          simp only [show (Mark.register == Mark.settle) = false from rfl, Bool.false_eq_true, if_false]
          omega
      | settle =>
          cases b with
          | false => cases hm
          | true =>
              cases hm
              simp only [List.count_cons, Bool.toNat_true, Bool.toNat_false, beq_self_eq_true, if_true] at hle ⊢
              simp only [show (Mark.settle == Mark.register) = false from rfl, Bool.false_eq_true, if_false]
              omega

/-- Without a registration, what is not pending stays so. -/
theorem run_false {ms : List Mark} {b : Bool} (h : Machine.run step false ms = some b)
    (hno : Mark.register ∉ ms) : b = false := by
  cases ms with
  | nil => cases h; rfl
  | cons m ms =>
      obtain ⟨b₁, hm, _⟩ := Machine.run_cons_eq_some.mp h
      cases m with
      | register => exact absurd List.mem_cons_self hno
      | settle   => cases hm

/-- What is pending was registered. -/
theorem register_of_pending {ms : List Mark} (h : Machine.run step false ms = some true) : Mark.register ∈ ms := by
  by_contra hno
  exact absurd (run_false h hno) (by decide)

/-- What is settled was registered before. -/
theorem register_of_settle {b : Bool} {ms ms' : List Mark}
    (h : Machine.run step false (ms ++ .settle :: ms') = some b) : Mark.register ∈ ms := by
  rw [Machine.run_append, Option.bind_eq_some_iff] at h
  obtain ⟨b₁, hms, h⟩ := h
  obtain ⟨b₂, hm, -⟩ := Machine.run_cons_eq_some.mp h
  cases b₁ with
  | false => cases hm
  | true  => exact register_of_pending hms

/-- **After a settling nothing is pending** until the next registration. -/
theorem not_pending_after_settle {b b' : Bool} {ms ms' : List Mark}
    (h : Machine.run step b (ms ++ .settle :: ms') = some b') (hno : Mark.register ∉ ms') : b' = false := by
  rw [Machine.run_append, Option.bind_eq_some_iff] at h
  obtain ⟨b₁, _, h⟩ := h
  obtain ⟨b₂, hm, hrest⟩ := Machine.run_cons_eq_some.mp h
  cases b₁ with
  | false => cases hm
  | true  => cases hm; exact run_false hrest hno

end Pending
