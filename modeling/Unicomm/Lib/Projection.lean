import Unicomm.Lib.Machine

/-!
# `Lib.Projection` — one machine as a part of another

A machine is made of parts, or of a part and what surrounds it. `proj` reads the state of the part off the state of
the whole and `acts` the steps the part takes when the whole takes one: none, one or several. When every step of
the whole is explained like this, so is every run (`run_project`), the steps of the part being the outputs of the
run; and what the guard of the whole promises for each step the guard of the part gets for its run
(`guarded_project`). Whatever is known about runs of the part then holds inside the whole. The other way round, when
the whole can answer each step of the part, each run of the part is one of these (`run_simulated`).
-/

namespace Machine

variable {σ ι τ κ : Type*} {step : σ → ι → Option σ} {step' : τ → κ → Option τ}

/-- A guarded run is put together from a guarded beginning and a guarded rest. -/
theorem Guarded.append {ok : σ → ι → Prop} {as bs : List ι} {s : σ} (h : Guarded step ok s as)
    (hrest : ∀ t, run step s as = some t → Guarded step ok t bs) : Guarded step ok s (as ++ bs) := by
  induction as generalizing s with
  | nil => exact hrest s rfl
  | cons a as ih =>
      refine ⟨h.1, fun s' hs' => ih (h.2 s' hs') (fun t ht => hrest t ?_)⟩
      exact run_cons_eq_some.mpr ⟨s', hs', ht⟩

variable (proj : σ → τ) (acts : σ → ι → List κ)

/-- **Runs of the whole are runs of the part.** -/
theorem run_project (inv : σ → Prop) (hinv : ∀ s a s', inv s → step s a = some s' → inv s')
    (hstep : ∀ s a s', inv s → step s a = some s' → run step' (proj s) (acts s a) = some (proj s')) :
    ∀ (as : List ι) (s t : σ), inv s → run step s as = some t →
      run step' (proj s) (outputs step acts s as) = some (proj t) := by
  intro as
  induction as with
  | nil =>
      intro s t _ h
      cases h
      rfl
  | cons a as ih =>
      intro s t hs h
      obtain ⟨s', ha, hrest⟩ := run_cons_eq_some.mp h
      rw [outputs, ha, run_append, hstep s a s' hs ha]
      exact ih s' t (hinv s a s' hs ha) hrest

/-- **Guards come along.** -/
theorem guarded_project {ok : σ → ι → Prop} {ok' : τ → κ → Prop} (inv : σ → Prop)
    (hinv : ∀ s a s', inv s → step s a = some s' → inv s')
    (hstep : ∀ s a s', inv s → step s a = some s' → run step' (proj s) (acts s a) = some (proj s'))
    (hok : ∀ s a, ok s a → Guarded step' ok' (proj s) (acts s a)) :
    ∀ (as : List ι) (s t : σ), inv s → Guarded step ok s as → run step s as = some t →
      Guarded step' ok' (proj s) (outputs step acts s as) := by
  intro as
  induction as with
  | nil => exact fun _ _ _ _ _ => trivial
  | cons a as ih =>
      intro s t hs hg h
      obtain ⟨s', ha, hrest⟩ := run_cons_eq_some.mp h
      rw [outputs, ha]
      refine (hok s a hg.1).append (fun t' ht' => ?_)
      rw [hstep s a s' hs ha] at ht'
      cases ht'
      exact ih s' t (hinv s a s' hs ha) (hg.2 s' ha) hrest

/-- Where the steps of the part do not depend on the state, they are read off those of the whole. -/
theorem outputs_filterMap (view : ι → Option κ) {as : List ι} {s t : σ} (h : run step s as = some t) :
    outputs step (fun _ a => (view a).toList) s as = as.filterMap view := by
  induction as generalizing s with
  | nil => rfl
  | cons a as ih =>
      obtain ⟨s', ha, hrest⟩ := run_cons_eq_some.mp h
      rw [outputs, ha, List.filterMap_cons]
      show (view a).toList ++ outputs step (fun _ a => (view a).toList) s' as = _
      rw [ih hrest]
      cases view a <;> rfl

/-- **A run of the whole shows the part's run.** -/
theorem run_filterMap (view : ι → Option κ)
    (hstep : ∀ s a s', step s a = some s' → run step' (proj s) (view a).toList = some (proj s')) {as : List ι} {s t : σ}
    (h : run step s as = some t) : run step' (proj s) (as.filterMap view) = some (proj t) := by
  rw [← outputs_filterMap view h]
  exact run_project proj (fun _ a => (view a).toList) (fun _ => True) (fun _ _ _ _ _ => trivial)
    (fun s a s' _ ha => hstep s a s' ha) as s t trivial h

/-- **A run of the part comes from one of the whole**, when the whole answers each step of the part with steps that show
    just that one. -/
theorem run_simulated (rel : τ → σ → Prop) (view : ι → Option κ)
    (hstep : ∀ t b t' s, rel t s → step' t b = some t' →
      ∃ as s', run step s as = some s' ∧ rel t' s' ∧ as.filterMap view = [b]) {bs : List κ} {t t' : τ} {s : σ}
    (hrel : rel t s) (h : run step' t bs = some t') :
    ∃ as s', run step s as = some s' ∧ rel t' s' ∧ as.filterMap view = bs := by
  induction bs generalizing t s with
  | nil =>
      cases h
      exact ⟨[], s, rfl, hrel, rfl⟩
  | cons b bs ih =>
      obtain ⟨t₁, hb, hrest⟩ := run_cons_eq_some.mp h
      obtain ⟨as, s₁, has, hrel₁, hview⟩ := hstep t b t₁ s hrel hb
      obtain ⟨as', s', has', hrel', hview'⟩ := ih hrel₁ hrest
      refine ⟨as ++ as', s', run_trans has has', hrel', ?_⟩
      rw [List.filterMap_append, hview, hview']
      rfl

end Machine
