import Mathlib.Data.List.Induction
import Unicomm.Lib.Machine

/-!
# `Lib.Lifecycle` — what may be called in the life of a thing

A thing is opened or refused, used any number of times, and closed. A log of events keeps to this **life
cycle** when an automaton with four phases accepts it; events without a mark are none of its business.
`InPhase.calls` is what acceptance says about the log itself: the calls are nothing at all, or the opening
one, any uses and perhaps a closing one, in this order.
-/

namespace Lifecycle

/-- What an event is in the life of the thing. -/
inductive Mark where
  | opened
  /-- It could not be opened. -/
  | refused
  | used
  | closed
  deriving DecidableEq, Repr

inductive Phase where
  | fresh
  | failed
  | live
  | gone
  deriving DecidableEq, Repr

/-- The life cycle. -/
def Phase.next : Phase → Mark → Option Phase
  | .fresh, .opened  => some .live
  | .fresh, .refused => some .failed
  | .live,  .used    => some .live
  | .live,  .closed  => some .gone
  | _,      _        => none

variable {α : Type*} (mark : α → Option Mark)

/-- The phase after an event. -/
def step (p : Phase) (e : α) : Option Phase :=
  match mark e with
  | some m => p.next m
  | none   => some p

/-- The log leads a thing that was not opened yet to phase `p`. -/
def InPhase (es : List α) (p : Phase) : Prop := Machine.run (step mark) .fresh es = some p

/-- The event is a call of the thing: everything marked but a refusal. -/
def isCall (e : α) : Bool :=
  match mark e with
  | some .opened | some .used | some .closed => true
  | _                                        => false

/-- The calls in a log. -/
def calls (es : List α) : List α := es.filter (isCall mark)

variable {mark} {es : List α} {e : α} {p : Phase}

theorem calls_append (es es' : List α) : calls mark (es ++ es') = calls mark es ++ calls mark es' :=
  List.filter_append ..

/-- A log grows by an event the life cycle allows. -/
theorem InPhase.snoc {q : Phase} (h : InPhase mark es p) (he : step mark p e = some q) :
    InPhase mark (es ++ [e]) q := by
  unfold InPhase at h ⊢
  rw [Machine.run_append, h, Option.bind_some, Machine.run_cons, he]
  rfl

/-- A log grows by events the life cycle does not mark. -/
theorem InPhase.append {es' : List α} (h : InPhase mark es p) (hno : ∀ e ∈ es', mark e = none) :
    InPhase mark (es ++ es') p := by
  induction es' generalizing es with
  | nil => rw [List.append_nil]; exact h
  | cons e es' ih =>
      have he : step mark p e = some p := by unfold step; rw [hno e List.mem_cons_self]
      rw [List.append_cons]
      exact ih (h.snoc he) (fun e' he' => hno e' (List.mem_cons_of_mem e he'))

/-! ## What an accepted log looks like -/

/-- No refusal is in the log. -/
def Granted (mark : α → Option Mark) (es : List α) : Prop := ∀ e ∈ es, mark e ≠ some .refused

theorem Granted.snoc {es : List α} {e : α} (h : Granted mark es) (he : mark e ≠ some .refused) :
    Granted mark (es ++ [e]) := by
  intro e' he'
  rcases List.mem_append.mp he' with hin | hin
  · exact h e' hin
  · rw [List.mem_singleton.mp hin]; exact he

/-- The calls of a log that leads to a phase, and that only one of them can have a refusal in it. -/
def Shape (mark : α → Option Mark) (es : List α) : Phase → Prop
  | .fresh  => calls mark es = [] ∧ Granted mark es
  | .failed => calls mark es = []
  | .live   => Granted mark es ∧ ∃ o us, calls mark es = o :: us ∧ mark o = some .opened
      ∧ ∀ u ∈ us, mark u = some .used
  | .gone   => Granted mark es ∧ ∃ o us c, calls mark es = o :: (us ++ [c]) ∧ mark o = some .opened
      ∧ (∀ u ∈ us, mark u = some .used) ∧ mark c = some .closed

theorem calls_snoc (es : List α) (e : α) :
    calls mark (es ++ [e]) = calls mark es ++ (if isCall mark e then [e] else []) := by
  rw [calls_append]
  congr 1
  exact List.filter_cons ..

/-- One more event. -/
theorem Shape.snoc {q : Phase} (h : Shape mark es p) (he : step mark p e = some q) :
    Shape mark (es ++ [e]) q := by
  unfold step at he
  have hcalls : calls mark (es ++ [e]) = _ := calls_snoc es e
  unfold isCall at hcalls
  cases hm : mark e with
  | none =>
      -- an event without a mark changes neither the phase nor the calls
      rw [hm] at he hcalls
      cases he
      have hgrant : Granted mark es → Granted mark (es ++ [e]) := fun hg => hg.snoc (by rw [hm]; nofun)
      simp only [Bool.false_eq_true, if_false, List.append_nil] at hcalls
      unfold Shape at h ⊢
      rw [hcalls]
      cases p with
      | fresh       => exact ⟨h.1, hgrant h.2⟩
      | failed      => exact h
      | live | gone => exact ⟨hgrant h.1, h.2⟩
  | some m =>
      rw [hm] at he hcalls
      cases p <;> cases m <;> cases he <;> simp only [if_true] at hcalls
      · -- opened
        refine ⟨h.2.snoc (by rw [hm]; nofun), e, [], ?_, hm, nofun⟩
        rw [hcalls, h.1, List.nil_append]
      · -- refused
        show calls mark (es ++ [e]) = []
        rw [hcalls, h.1]
        rfl
      · -- used
        obtain ⟨hgrant, o, us, hes, ho, hus⟩ := h
        refine ⟨hgrant.snoc (by rw [hm]; nofun), o, us ++ [e], by rw [hcalls, hes, List.cons_append], ho, ?_⟩
        intro u hu
        rcases List.mem_append.mp hu with hu | hu
        · exact hus u hu
        · rw [List.mem_singleton.mp hu, hm]
      · -- closed
        obtain ⟨hgrant, o, us, hes, ho, hus⟩ := h
        exact ⟨hgrant.snoc (by rw [hm]; nofun), o, us, e, by rw [hcalls, hes, List.cons_append], ho, hus, hm⟩

/-- **An accepted log has the shape of its phase.** -/
theorem InPhase.shape (h : InPhase mark es p) : Shape mark es p := by
  induction es using List.reverseRecOn generalizing p with
  | nil =>
      cases Option.some.inj h
      exact ⟨rfl, nofun⟩
  | append_singleton es e ih =>
      unfold InPhase at h
      rw [Machine.run_append, Option.bind_eq_some_iff] at h
      obtain ⟨p', hes, he⟩ := h
      obtain ⟨q, hq, hrun⟩ := Machine.run_cons_eq_some.mp he
      cases Option.some.inj hrun
      exact (ih hes).snoc hq

/-! ## What follows from the shape -/

/-- **The opening call is the first one and the only one of its kind.** -/
theorem InPhase.opened_first (h : InPhase mark es p) :
    calls mark es = [] ∨ ∃ o rest, calls mark es = o :: rest ∧ mark o = some .opened
      ∧ ∀ e ∈ rest, mark e ≠ some .opened := by
  cases p with
  | fresh  => exact .inl h.shape.1
  | failed => exact .inl h.shape
  | live =>
      obtain ⟨-, o, us, hes, ho, hus⟩ := h.shape
      exact .inr ⟨o, us, hes, ho, fun u hu => by rw [hus u hu]; nofun⟩
  | gone =>
      obtain ⟨-, o, us, c, hes, ho, hus, hc⟩ := h.shape
      refine .inr ⟨o, us ++ [c], hes, ho, fun u hu => ?_⟩
      rcases List.mem_append.mp hu with hu | hu
      · rw [hus u hu]; nofun
      · rw [List.mem_singleton.mp hu, hc]; nofun

/-- **What was refused is never called.** -/
theorem InPhase.refused (h : InPhase mark es p) (he : e ∈ es) (hm : mark e = some .refused) :
    calls mark es = [] := by
  cases p with
  | fresh       => exact h.shape.1
  | failed      => exact h.shape
  | live | gone => exact absurd hm (h.shape.1 e he)

/-- **The closing call is the last one.** -/
theorem InPhase.closed_last (h : InPhase mark es p) {pre post : List α} {c : α}
    (hes : calls mark es = pre ++ c :: post) (hc : mark c = some .closed) : post = [] := by
  have hin : c ∈ calls mark es := by rw [hes]; exact List.mem_append_right _ List.mem_cons_self
  cases p with
  | fresh  => rw [h.shape.1] at hin; exact absurd hin List.not_mem_nil
  | failed =>
      have hnil : calls mark es = [] := h.shape
      rw [hnil] at hin
      exact absurd hin List.not_mem_nil
  | live =>
      -- neither the opening call nor a use is a closing one
      obtain ⟨-, o, us, hshape, ho, hus⟩ := h.shape
      rw [hshape] at hin
      rcases List.mem_cons.mp hin with rfl | hin
      · rw [hc] at ho; cases ho
      · rw [hus c hin] at hc; cases hc
  | gone =>
      obtain ⟨-, o, us, d, hshape, ho, hus, -⟩ := h.shape
      -- if anything stood behind `c`, then `c` would be the opening call or a use
      rcases List.eq_nil_or_concat post with hnil | ⟨post', x, rfl⟩
      · exact hnil
      · rw [hes, ← List.cons_append, List.concat_eq_append, ← List.cons_append, ← List.append_assoc] at hshape
        have hinit := List.append_inj_left' hshape rfl
        have hc' : c ∈ o :: us := by rw [← hinit]; exact List.mem_append_right _ List.mem_cons_self
        rcases List.mem_cons.mp hc' with rfl | hc'
        · rw [hc] at ho; cases ho
        · rw [hus c hc'] at hc; cases hc

end Lifecycle
