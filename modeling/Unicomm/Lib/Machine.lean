import Mathlib.Logic.Function.Basic

/-!
# `Lib.Machine` — runs of a partial step function

A concurrent program is given by a **partial step function** `step : σ → ι → Option σ`: `ι` names the
atomic steps (who moves and how its nondeterminism is resolved), and `none` means the step is not enabled.
Every interleaving is then a list of steps, and "in every reachable state" is "at the end of every run that
does not get stuck".

## Contents
- **Runs.** `run` and how runs compose (`run_append`, `run_snoc`).
- **The invariant rule.** `run_invariant`: what one step keeps, a run keeps.
- **Guarded runs.** `Guarded ok` says that every step of the run met the condition `ok` in the state it was
  taken in; `run_guarded_invariant` is the invariant rule for such runs, `run_past_invariant` the one for
  properties that look at the steps taken, and `guarded_or_bad` and `guarded_iff_always` tell that a run is guarded.
- **Outputs.** `outputs` collects what the steps of a run put out; `run_outputs_invariant` relates it to the steps
  taken and the state reached (`run_outputs_of_step` for runs without a guard).
-/

namespace Machine

variable {σ ι : Type*}

/-- Perform the steps of a list in order; `none` as soon as one is not enabled. -/
def run (step : σ → ι → Option σ) : σ → List ι → Option σ
  | s, []      => some s
  | s, a :: as => (step s a).bind (fun s' => run step s' as)

@[simp] theorem run_nil (step : σ → ι → Option σ) (s : σ) : run step s [] = some s := rfl

theorem run_cons (step : σ → ι → Option σ) (s : σ) (a : ι) (as : List ι) :
    run step s (a :: as) = (step s a).bind (fun s' => run step s' as) := rfl

/-- A run that starts with `a` first takes the step `a`. -/
theorem run_cons_eq_some {step : σ → ι → Option σ} {s t : σ} {a : ι} {as : List ι} :
    run step s (a :: as) = some t ↔ ∃ s', step s a = some s' ∧ run step s' as = some t := by
  rw [run_cons, Option.bind_eq_some_iff]

/-- Runs compose. -/
theorem run_append (step : σ → ι → Option σ) (s : σ) (as bs : List ι) :
    run step s (as ++ bs) = (run step s as).bind (fun s' => run step s' bs) := by
  induction as generalizing s with
  | nil => rfl
  | cons a as ih =>
      rw [List.cons_append, run_cons, run_cons, Option.bind_assoc]
      congr 1
      funext s'
      exact ih s'

/-- A run and another one from where it ends. -/
theorem run_trans {step : σ → ι → Option σ} {s t u : σ} {as bs : List ι} (h : run step s as = some t)
    (h' : run step t bs = some u) : run step s (as ++ bs) = some u := by
  rw [run_append, h]
  exact h'

/-- A run and one more step. -/
theorem run_snoc {step : σ → ι → Option σ} {s t u : σ} {as : List ι} {a : ι} (h : run step s as = some t)
    (ha : step t a = some u) : run step s (as ++ [a]) = some u :=
  run_trans h (run_cons_eq_some.mpr ⟨u, ha, rfl⟩)

/-! ## The invariant rule -/

/-- **Invariant rule.** A property kept by every step is kept by every run. -/
theorem run_invariant {step : σ → ι → Option σ} (inv : σ → Prop)
    (hstep : ∀ s a s', inv s → step s a = some s' → inv s') :
    ∀ (as : List ι) (s t : σ), inv s → run step s as = some t → inv t := by
  intro as
  induction as with
  | nil =>
      intro s t hs hrun
      exact Option.some.inj hrun ▸ hs
  | cons a as ih =>
      intro s t hs hrun
      obtain ⟨s', ha, hrun'⟩ := run_cons_eq_some.mp hrun
      exact ih s' t (hstep s a s' hs ha) hrun'

/-! ## Guarded runs -/

/-- Every step of the run meets `ok` in the state it is taken in. -/
def Guarded (step : σ → ι → Option σ) (ok : σ → ι → Prop) : σ → List ι → Prop
  | _, []      => True
  | s, a :: as => ok s a ∧ ∀ s', step s a = some s' → Guarded step ok s' as

/-- Whether a given run is guarded can be computed. -/
instance decidableGuarded {step : σ → ι → Option σ} {ok : σ → ι → Prop} [∀ s a, Decidable (ok s a)] :
    ∀ (s : σ) (as : List ι), Decidable (Guarded step ok s as)
  | _, []      => isTrue trivial
  | s, a :: as =>
      match h : step s a with
      | none    => decidable_of_iff (ok s a)
          ⟨fun hok => ⟨hok, fun s' hs' => by rw [h] at hs'; cases hs'⟩, fun hg => hg.1⟩
      | some s' =>
          have : Decidable (Guarded step ok s' as) := decidableGuarded s' as
          decidable_of_iff (ok s a ∧ Guarded step ok s' as)
            ⟨fun hg => ⟨hg.1, fun s'' hs'' => by rw [h] at hs''; cases hs''; exact hg.2⟩,
              fun hg => ⟨hg.1, hg.2 s' h⟩⟩

/-- A condition on the steps alone is met by a run all of whose steps meet it. -/
theorem guarded_of_mem {step : σ → ι → Option σ} {ok : σ → ι → Prop} {as : List ι}
    (h : ∀ s, ∀ a ∈ as, ok s a) {s : σ} : Guarded step ok s as := by
  induction as generalizing s with
  | nil => exact trivial
  | cons a as ih =>
      exact ⟨h s a List.mem_cons_self, fun s' _ => ih (fun s b hb => h s b (List.mem_cons_of_mem a hb))⟩

/-- Two conditions that every step meets are one. -/
theorem Guarded.and {step : σ → ι → Option σ} {ok ok' : σ → ι → Prop} {as : List ι} {s : σ}
    (h : Guarded step ok s as) (h' : Guarded step ok' s as) : Guarded step (fun s a => ok s a ∧ ok' s a) s as := by
  induction as generalizing s with
  | nil => exact trivial
  | cons a as ih => exact ⟨⟨h.1, h'.1⟩, fun s' hs' => ih (h.2 s' hs') (h'.2 s' hs')⟩

/-- **Invariant rule for guarded runs.** A property kept by every step that meets the condition is kept
    by every run whose steps all meet it. -/
theorem run_guarded_invariant {step : σ → ι → Option σ} {ok : σ → ι → Prop} (inv : σ → Prop)
    (hstep : ∀ s a s', inv s → ok s a → step s a = some s' → inv s') :
    ∀ (as : List ι) (s t : σ), inv s → Guarded step ok s as → run step s as = some t → inv t := by
  intro as
  induction as with
  | nil =>
      intro s t hs _ hrun
      exact Option.some.inj hrun ▸ hs
  | cons a as ih =>
      intro s t hs hg hrun
      obtain ⟨s', ha, hrun'⟩ := run_cons_eq_some.mp hrun
      exact ih s' t (hstep s a s' hs hg.1 ha) (hg.2 s' ha) hrun'

/-- **Invariant rule with the past.** The property may depend on the steps taken so far. -/
theorem run_past_invariant {step : σ → ι → Option σ} {ok : σ → ι → Prop} (inv : List ι → σ → Prop)
    (hstep : ∀ past s a s', inv past s → ok s a → step s a = some s' → inv (past ++ [a]) s') :
    ∀ (as past : List ι) (s t : σ), inv past s → Guarded step ok s as → run step s as = some t →
      inv (past ++ as) t := by
  intro as
  induction as with
  | nil =>
      intro past s t hs _ hrun
      rw [List.append_nil]
      exact Option.some.inj hrun ▸ hs
  | cons a as ih =>
      intro past s t hs hg hrun
      obtain ⟨s', ha, hrun'⟩ := run_cons_eq_some.mp hrun
      rw [List.append_cons]
      exact ih (past ++ [a]) s' t (hstep past s a s' hs hg.1 ha) (hg.2 s' ha) hrun'

/-- **A run that is not guarded leaves a mark.** When every step that does not meet the condition leads to a bad
    state, and a bad state stays bad, a run is guarded or ends in a bad state. -/
theorem guarded_or_bad {step : σ → ι → Option σ} {ok : σ → ι → Prop} (inv bad : σ → Prop)
    (hstep : ∀ s a s', inv s → step s a = some s' → inv s')
    (hbreak : ∀ s a s', inv s → ¬ ok s a → step s a = some s' → bad s')
    (hbad : ∀ s a s', bad s → step s a = some s' → bad s') :
    ∀ (as : List ι) (s t : σ), inv s → run step s as = some t → Guarded step ok s as ∨ bad t := by
  intro as
  induction as with
  | nil => exact fun s t _ _ => .inl trivial
  | cons a as ih =>
      intro s t hs hrun
      obtain ⟨s', ha, hrun'⟩ := run_cons_eq_some.mp hrun
      by_cases hok : ok s a
      · refine (ih s' t (hstep s a s' hs ha) hrun').imp_left (fun hg => ⟨hok, fun s'' hs'' => ?_⟩)
        rw [ha] at hs''
        cases hs''
        exact hg
      · exact .inr (run_invariant bad hbad as s' t (hbreak s a s' hs hok ha) hrun')

/-- **The guard is exact.** When from a good state exactly the steps that meet the condition lead to a good state,
    a run is guarded if and only if every state it goes through is good. -/
theorem guarded_iff_always {step : σ → ι → Option σ} {ok : σ → ι → Prop} {inv : σ → Prop}
    (hstep : ∀ s a s', inv s → step s a = some s' → (inv s' ↔ ok s a))
    (hstuck : ∀ s a, step s a = none → ok s a) :
    ∀ (as : List ι) (s : σ), inv s →
      (Guarded step ok s as ↔ ∀ done todo, as = done ++ todo → ∀ t, run step s done = some t → inv t) := by
  intro as
  induction as with
  | nil =>
      intro s hs
      refine ⟨fun _ done todo h t hrun => ?_, fun _ => trivial⟩
      obtain ⟨rfl, -⟩ := List.append_eq_nil_iff.mp h.symm
      exact Option.some.inj hrun ▸ hs
  | cons a as ih =>
      intro s hs
      constructor
      · rintro ⟨hok, hg⟩ done todo h t hrun
        rcases done with _ | ⟨b, done⟩
        · exact Option.some.inj hrun ▸ hs
        · obtain ⟨rfl, htail⟩ := List.cons.inj h
          obtain ⟨s', ha, hrun'⟩ := run_cons_eq_some.mp hrun
          exact (ih s' ((hstep s a s' hs ha).mpr hok)).mp (hg s' ha) done todo htail t hrun'
      · intro hall
        have hgood : ∀ s', step s a = some s' → inv s' := fun s' ha =>
          hall [a] as rfl s' (run_cons_eq_some.mpr ⟨s', ha, rfl⟩)
        constructor
        · -- the step taken
          cases ha : step s a with
          | none => exact hstuck s a ha
          | some s' => exact (hstep s a s' hs ha).mp (hgood s' ha)
        · -- the rest of the run
          intro s' ha
          refine (ih s' (hgood s' ha)).mpr (fun done todo htail t hrun => ?_)
          exact hall (a :: done) todo (by rw [htail]; rfl) t (run_cons_eq_some.mpr ⟨s', ha, hrun⟩)

/-! ## Outputs -/

variable {β : Type*}

/-- What the steps of a run put out, in order. -/
def outputs (step : σ → ι → Option σ) (out : σ → ι → List β) : σ → List ι → List β
  | _, []      => []
  | s, a :: as =>
      out s a ++ match step s a with
        | some s' => outputs step out s' as
        | none    => []

/-- **Invariant rule with the outputs.** The property relates the steps taken, what they put out and the state.
    -/
theorem run_outputs_invariant {step : σ → ι → Option σ} {ok : σ → ι → Prop} (out : σ → ι → List β)
    (inv : List ι → List β → σ → Prop)
    (hstep : ∀ past ys s a s', inv past ys s → ok s a → step s a = some s' → inv (past ++ [a]) (ys ++ out s a) s') :
    ∀ (as past : List ι) (ys : List β) (s t : σ), inv past ys s → Guarded step ok s as → run step s as = some t →
      inv (past ++ as) (ys ++ outputs step out s as) t := by
  intro as
  induction as with
  | nil =>
      intro past ys s t hs _ hrun
      rw [outputs, List.append_nil, List.append_nil]
      exact Option.some.inj hrun ▸ hs
  | cons a as ih =>
      intro past ys s t hs hg hrun
      obtain ⟨s', ha, hrun'⟩ := run_cons_eq_some.mp hrun
      rw [List.append_cons, outputs, ha, ← List.append_assoc]
      exact ih (past ++ [a]) (ys ++ out s a) s' t (hstep past ys s a s' hs hg.1 ha) (hg.2 s' ha) hrun'

/-- The rule without a guard, from the start of the run. -/
theorem run_outputs_of_step {step : σ → ι → Option σ} (out : σ → ι → List β) (inv : List ι → List β → σ → Prop)
    (hstep : ∀ past ys s a s', inv past ys s → step s a = some s' → inv (past ++ [a]) (ys ++ out s a) s')
    {as : List ι} {s t : σ} (hs : inv [] [] s) (h : run step s as = some t) : inv as (outputs step out s as) t := by
  have hok : Guarded step (fun _ _ => True) s as := guarded_of_mem (fun _ _ _ => trivial)
  have hrun := run_outputs_invariant out inv (fun past ys s a s' hi _ ha => hstep past ys s a s' hi ha) as [] [] s t hs
    hok h
  rwa [List.nil_append, List.nil_append] at hrun

/-- The rule with the past, without a guard and from the start of the run. -/
theorem run_past_of_step {step : σ → ι → Option σ} (inv : List ι → σ → Prop)
    (hstep : ∀ past s a s', inv past s → step s a = some s' → inv (past ++ [a]) s')
    {as : List ι} {s t : σ} (hs : inv [] s) (h : run step s as = some t) : inv as t := by
  have hok : Guarded step (fun _ _ => True) s as := guarded_of_mem (fun _ _ _ => trivial)
  have hrun := run_past_invariant inv (fun past s a s' hi _ ha => hstep past s a s' hi ha) as [] s t hs hok h
  rwa [List.nil_append] at hrun

end Machine
