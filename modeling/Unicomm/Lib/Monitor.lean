import Mathlib.Data.Fintype.Basic
import Unicomm.Lib.Machine

/-!
# `Lib.Monitor` — a lock, a condition variable and a predicate

**Agents** change a value under one lock, and after some changes, with the lock released, notify one waiter.
**Waiters** wait under the same lock until a predicate of the value holds or their time is up, the way a timed wait
with a predicate does it: test, block, be woken, lock and test again, and test a last time when the time is up. A
waiter may also be woken for no reason.

## Contents
- **The machine.** `Protocol` is what an agent does, `State.step` one step of an agent or a waiter, `Move` what a
  step can do.
- **Testing.** `Tested`: a waiter that is about to block or to leave still sees what it tested.
- **Waking up.** `Woken`: with one waiter at a time, and agents that announce the value, a waiter is never blocked on
  a value that is ready unless a notification is under way; `wait_ends` is the way out it then has.
-/

namespace Monitor

/-- What agents do. `κ` is where an agent stands, `σ` the value under the lock, `ι` the changes. -/
structure Protocol (σ κ ι : Type*) where
  ready   : σ → Bool
  /-- A change, made with the lock held; `none` when it is not possible. -/
  change  : ι → κ → σ → Option (κ × σ)
  /-- Where an agent that is about to notify stands afterwards. -/
  notify? : κ → Option κ

/-- **Who leaves the value ready notifies.** -/
def Protocol.Announces {σ κ ι : Type*} (P : Protocol σ κ ι) : Prop :=
  ∀ {i k v k' v'}, P.change i k v = some (k', v') → P.ready v' = true → (P.notify? k').isSome = true

/-- Where a waiter stands. -/
inductive WaitPos where
  | idle
  /-- The lock is held; the predicate is tested next. -/
  | testing
  /-- The predicate did not hold; the lock is still held. -/
  | refused
  | blocked
  /-- Notified, or woken for no reason; the lock is taken next. -/
  | woken
  /-- The time is up; the lock is taken next. -/
  | late
  /-- The lock is held; the predicate is tested a last time. -/
  | lastTest
  /-- The wait is over; the lock is released next. -/
  | leaving (result : Bool)
  | ended (result : Bool)
  deriving DecidableEq, Repr

namespace WaitPos

/-- A waiter that has not called the wait, or has returned from it. -/
def outside : WaitPos → Bool
  | idle | ended _ => true
  | _              => false

/-- A waiter that holds the lock. -/
def holds : WaitPos → Bool
  | testing | refused | lastTest | leaving _ => true
  | _                                        => false

/-- Where a waiter stands once it has the lock. -/
def locked : WaitPos → Option WaitPos
  | idle | ended _ | woken => some testing
  | late                   => some lastTest
  | _                      => none

/-- A waiter takes the lock to test. -/
theorem locked_eq_some {p q : WaitPos} (h : p.locked = some q) : q = testing ∨ q = lastTest := by
  cases p <;> cases h <;> simp

theorem holds_of_outside {p : WaitPos} (h : p.outside = true) : p.holds = false := by
  cases p <;> first | rfl | cases h

end WaitPos

/-- The value, the agents and the waiters. The lock is held by the waiter that stands where it is held, and by an
    agent within a step. -/
structure State (σ κ α ω : Type*) where
  value   : σ
  agents  : α → κ
  waiters : ω → WaitPos

/-- The steps. -/
inductive Act (ι α ω : Type*) where
  | change (a : α) (i : ι)
  /-- Agent `a` notifies; the waiter that is woken, if there is one. -/
  | notify (a : α) (w : Option ω)
  | lock (w : ω)
  | test (w : ω)
  | block (w : ω)
  | spurious (w : ω)
  | elapse (w : ω)
  | unlock (w : ω)
  deriving DecidableEq

namespace State

variable {σ κ ι α ω : Type*}

/-- Everybody is outside. -/
def init (v : σ) (k : κ) : State σ κ α ω := ⟨v, fun _ => k, fun _ => .idle⟩

/-- Nobody holds the lock. -/
def Free (s : State σ κ α ω) : Prop := ∀ w, (s.waiters w).holds = false

instance [Fintype ω] (s : State σ κ α ω) : Decidable s.Free :=
  inferInstanceAs (Decidable (∀ w, (s.waiters w).holds = false))

/-- Nobody waits to be woken. -/
def NoneBlocked (s : State σ κ α ω) : Prop := ∀ w, s.waiters w ≠ .blocked

instance [Fintype ω] (s : State σ κ α ω) : Decidable s.NoneBlocked :=
  inferInstanceAs (Decidable (∀ w, s.waiters w ≠ .blocked))

variable [DecidableEq ω]

/-- Waiter `w` moves. -/
def setWaiter (s : State σ κ α ω) (w : ω) (p : WaitPos) : State σ κ α ω :=
  { s with waiters := Function.update s.waiters w p }

/-- The waiter that moved, and the others. -/
theorem waiters_setWaiter (s : State σ κ α ω) (w w' : ω) (p : WaitPos) :
    (s.setWaiter w p).waiters w' = if w' = w then p else s.waiters w' := Function.update_apply ..

variable [DecidableEq α]

/-- Agent `a` moves. -/
def setAgent (s : State σ κ α ω) (a : α) (k : κ) : State σ κ α ω :=
  { s with agents := Function.update s.agents a k }

variable (P : Protocol σ κ ι)

/-- One step; `none` when it is not possible. With a blocked waiter, a notification wakes one. -/
def step [Fintype ω] (s : State σ κ α ω) : Act ι α ω → Option (State σ κ α ω)
  | .change a i =>
      if s.Free then
        (P.change i (s.agents a) s.value).map (fun r => { s.setAgent a r.1 with value := r.2 })
      else none
  | .notify a (some w) =>
      if s.waiters w = .blocked then
        (P.notify? (s.agents a)).map (fun k => (s.setAgent a k).setWaiter w .woken)
      else none
  | .notify a none =>
      if s.NoneBlocked then (P.notify? (s.agents a)).map (fun k => s.setAgent a k) else none
  | .lock w => if s.Free then (s.waiters w).locked.map (s.setWaiter w) else none
  | .test w =>
      match s.waiters w with
      | .testing  => some (s.setWaiter w (if P.ready s.value then .leaving true else .refused))
      | .lastTest => some (s.setWaiter w (.leaving (P.ready s.value)))
      | _         => none
  | .block w    => if s.waiters w = .refused then some (s.setWaiter w .blocked) else none
  | .spurious w => if s.waiters w = .blocked then some (s.setWaiter w .woken) else none
  | .elapse w   => if s.waiters w = .blocked then some (s.setWaiter w .late) else none
  | .unlock w   =>
      match s.waiters w with
      | .leaving b => some (s.setWaiter w (.ended b))
      | _          => none

/-! ## What a step does -/

/-- **Everything a step can do**, with what allowed it. -/
inductive Move (s : State σ κ α ω) : Act ι α ω → State σ κ α ω → Prop where
  | change {a : α} {i : ι} {k : κ} {v : σ} (hfree : s.Free) (hc : P.change i (s.agents a) s.value = some (k, v)) :
      Move s (.change a i) { s.setAgent a k with value := v }
  | notify {a : α} {w : ω} {k : κ} (hw : s.waiters w = .blocked) (hk : P.notify? (s.agents a) = some k) :
      Move s (.notify a (some w)) ((s.setAgent a k).setWaiter w .woken)
  | notifyNone {a : α} {k : κ} (hw : s.NoneBlocked) (hk : P.notify? (s.agents a) = some k) :
      Move s (.notify a none) (s.setAgent a k)
  | lock {w : ω} {p : WaitPos} (hp : (s.waiters w).locked = some p) : Move s (.lock w) (s.setWaiter w p)
  | test {w : ω} (hw : s.waiters w = .testing) :
      Move s (.test w) (s.setWaiter w (if P.ready s.value then .leaving true else .refused))
  | lastTest {w : ω} (hw : s.waiters w = .lastTest) : Move s (.test w) (s.setWaiter w (.leaving (P.ready s.value)))
  | block {w : ω} (hw : s.waiters w = .refused) : Move s (.block w) (s.setWaiter w .blocked)
  | spurious {w : ω} (hw : s.waiters w = .blocked) : Move s (.spurious w) (s.setWaiter w .woken)
  | elapse {w : ω} (hw : s.waiters w = .blocked) : Move s (.elapse w) (s.setWaiter w .late)
  | unlock {w : ω} {b : Bool} (hw : s.waiters w = .leaving b) : Move s (.unlock w) (s.setWaiter w (.ended b))

variable {P} {s s' : State σ κ α ω} {x : Act ι α ω}

/-- **A step is a move.** -/
theorem step_move [Fintype ω] (h : s.step P x = some s') : Move P s x s' := by
  unfold step at h
  split at h
  · split at h
    · next a i hfree =>
        obtain ⟨⟨k, v⟩, hc, rfl⟩ := Option.map_eq_some_iff.mp h
        exact .change hfree hc
    · cases h
  · split at h
    · next a w hw =>
        obtain ⟨k, hk, rfl⟩ := Option.map_eq_some_iff.mp h
        exact .notify hw hk
    · cases h
  · split at h
    · next a hw =>
        obtain ⟨k, hk, rfl⟩ := Option.map_eq_some_iff.mp h
        exact .notifyNone hw hk
    · cases h
  · split at h
    · next w hfree =>
        obtain ⟨p, hp, rfl⟩ := Option.map_eq_some_iff.mp h
        exact .lock hp
    · cases h
  · split at h
    · next hw => cases h; exact .test hw
    · next hw => cases h; exact .lastTest hw
    · cases h
  · split at h
    · next w hw => cases h; exact .block hw
    · cases h
  · split at h
    · next w hw => cases h; exact .spurious hw
    · cases h
  · split at h
    · next w hw => cases h; exact .elapse hw
    · cases h
  · split at h
    · next w b hw => cases h; exact .unlock hw
    · cases h

/-! ## Testing -/

/-- **What a waiter tested still holds** as long as it has the lock. -/
structure Tested (P : Protocol σ κ ι) (s : State σ κ α ω) : Prop where
  refused : ∀ w, s.waiters w = .refused → P.ready s.value = false
  leaving : ∀ w b, s.waiters w = .leaving b → P.ready s.value = b

omit [DecidableEq α] [DecidableEq ω] in
theorem Tested.init (v : σ) (k : κ) : (State.init v k : State σ κ α ω).Tested P := by
  constructor
  · intro w h
    cases h
  · intro w b h
    cases h

omit [DecidableEq α] in
/-- A waiter moves, to a place where it tested nothing or the test is right. -/
theorem Tested.setWaiter (h : s.Tested P) {w : ω} {p : WaitPos} (hrefused : p = .refused → P.ready s.value = false)
    (hleaving : ∀ b, p = .leaving b → P.ready s.value = b) : (s.setWaiter w p).Tested P := by
  constructor
  · intro w' hw'
    rw [waiters_setWaiter] at hw'
    split at hw'
    · exact hrefused hw'
    · exact h.refused w' hw'
  · intro w' b hw'
    rw [waiters_setWaiter] at hw'
    split at hw'
    · exact hleaving b hw'
    · exact h.leaving w' b hw'

/-- **Every move keeps it**: the value only changes when nobody has the lock. -/
theorem Tested.move (h : s.Tested P) (hm : Move P s x s') : s'.Tested P := by
  cases hm with
  | change hfree hc =>
      constructor
      -- a waiter that tested has the lock, and then the value does not change
      · intro w hw
        have hno : (s.waiters w).holds = false := hfree w
        rw [show s.waiters w = .refused from hw] at hno
        cases hno
      · intro w b hw
        have hno : (s.waiters w).holds = false := hfree w
        rw [show s.waiters w = .leaving b from hw] at hno
        cases hno
  | @notify a w k hw hk =>
      have hagent : (s.setAgent a k).Tested P := ⟨h.refused, h.leaving⟩
      exact hagent.setWaiter (fun he => by cases he) (fun _ he => by cases he)
  | notifyNone hw hk => exact ⟨h.refused, h.leaving⟩
  | lock hp =>
      rcases WaitPos.locked_eq_some hp with rfl | rfl <;>
        exact h.setWaiter (fun he => by cases he) (fun _ he => by cases he)
  | test hw =>
      cases hr : P.ready s.value with
      | true =>
          refine h.setWaiter (fun he => by cases he) (fun b he => ?_)
          cases he
          exact hr
      | false => exact h.setWaiter (fun _ => hr) (fun _ he => by cases he)
  -- the last test is the answer, whichever it is
  | lastTest hw =>
      refine h.setWaiter (fun he => by cases he) (fun b he => ?_)
      cases he
      rfl
  | block hw | spurious hw | elapse hw | unlock hw =>
      exact h.setWaiter (fun he => by cases he) (fun _ he => by cases he)

/-! ## Waking up -/

/-- A waiter calls the wait only when no other is in it. -/
def OneAtATime (s : State σ κ α ω) (x : Act ι α ω) : Prop :=
  ∀ w, x = .lock w → ∀ w', w' ≠ w → (s.waiters w').outside = true

instance [Fintype ω] [DecidableEq ι] (s : State σ κ α ω) (x : Act ι α ω) : Decidable (OneAtATime s x) :=
  inferInstanceAs (Decidable (∀ w, x = .lock w → ∀ w', w' ≠ w → (s.waiters w').outside = true))

/-- **Nobody is forgotten**: there is one waiter at most, and when it is blocked on a value that is ready, some agent
    is about to notify. -/
structure Woken (P : Protocol σ κ ι) (s : State σ κ α ω) : Prop where
  single : ∀ w w', (s.waiters w).outside = false → (s.waiters w').outside = false → w = w'
  woken  : ∀ w, s.waiters w = .blocked → P.ready s.value = true → ∃ a, (P.notify? (s.agents a)).isSome = true

omit [DecidableEq α] [DecidableEq ω] in
theorem Woken.init (v : σ) (k : κ) : (State.init v k : State σ κ α ω).Woken P := by
  constructor
  · intro w w' h
    cases h
  · intro w h
    cases h

omit [DecidableEq α] in
/-- A waiter that is inside moves on. -/
theorem Woken.setWaiter (h : s.Woken P) {w : ω} {p : WaitPos}
    (hw : p.outside = true ∨ ∀ w', w' ≠ w → (s.waiters w').outside = true)
    (hblocked : p = .blocked → P.ready s.value = false) : (s.setWaiter w p).Woken P := by
  constructor
  · intro w₁ w₂ h₁ h₂
    rw [waiters_setWaiter] at h₁ h₂
    rcases hw with hout | hothers
    · -- the waiter that moved is outside now
      split at h₁
      · rw [hout] at h₁
        cases h₁
      · split at h₂
        · rw [hout] at h₂
          cases h₂
        · exact h.single w₁ w₂ h₁ h₂
    · -- nobody else is inside
      have hme : ∀ w', (if w' = w then p else s.waiters w').outside = false → w' = w := by
        intro w' hin
        by_contra hne
        rw [if_neg hne, hothers w' hne] at hin
        cases hin
      rw [hme w₁ h₁, hme w₂ h₂]
  · intro w' hw' hready
    rw [waiters_setWaiter] at hw'
    split at hw'
    · have hready' : P.ready s.value = true := hready
      rw [hblocked hw'] at hready'
      cases hready'
    · exact h.woken w' hw' hready

omit [DecidableEq α] [DecidableEq ω] in
/-- Whoever is inside is alone there. -/
theorem Woken.others (h : s.Woken P) {w : ω} (hw : (s.waiters w).outside = false) :
    ∀ w', w' ≠ w → (s.waiters w').outside = true := by
  intro w' hne
  by_contra hin
  exact hne (h.single w' w (Bool.eq_false_iff.mpr hin) hw)

/-- **Every move keeps it**, when waiters come one at a time and agents announce the value. -/
theorem Woken.move (hP : P.Announces) (h : s.Woken P) (ht : s.Tested P) (hone : OneAtATime s x)
    (hm : Move P s x s') : s'.Woken P := by
  cases hm with
  | @change a i k v hfree hc =>
      refine ⟨h.single, fun w hw hready => ⟨a, ?_⟩⟩
      show (P.notify? (Function.update s.agents a k a)).isSome = true
      rw [Function.update_self]
      exact hP hc hready
  | @notify a w k hw hk =>
      have hin : (s.waiters w).outside = false := by rw [hw]; rfl
      have hothers := h.others hin
      constructor
      · intro w₁ w₂ h₁ h₂
        have hme : ∀ w', (((s.setAgent a k).setWaiter w .woken).waiters w').outside = false → w' = w := by
          intro w' hw'
          by_contra hne
          rw [waiters_setWaiter, if_neg hne] at hw'
          rw [show (s.setAgent a k).waiters w' = s.waiters w' from rfl, hothers w' hne] at hw'
          cases hw'
        rw [hme w₁ h₁, hme w₂ h₂]
      · -- the only waiter there was is not blocked any more
        intro w' hw' hready
        rw [waiters_setWaiter] at hw'
        split at hw'
        · cases hw'
        · next hne =>
            have hout := hothers w' hne
            rw [show s.waiters w' = .blocked from hw'] at hout
            cases hout
  | notifyNone hw hk => exact ⟨h.single, fun w hw' _ => absurd hw' (hw w)⟩
  | @lock w p hp =>
      rcases WaitPos.locked_eq_some hp with rfl | rfl <;>
        exact h.setWaiter (.inr (hone w rfl)) (fun he => by cases he)
  | @test w hw =>
      have hin : (s.waiters w).outside = false := by rw [hw]; rfl
      refine h.setWaiter (.inr (h.others hin)) (fun he => ?_)
      split at he <;> cases he
  | @lastTest w hw =>
      have hin : (s.waiters w).outside = false := by rw [hw]; rfl
      exact h.setWaiter (.inr (h.others hin)) (fun he => by cases he)
  | @block w hw =>
      have hin : (s.waiters w).outside = false := by rw [hw]; rfl
      exact h.setWaiter (.inr (h.others hin)) (fun _ => ht.refused w hw)
  | @spurious w hw | @elapse w hw =>
      have hin : (s.waiters w).outside = false := by rw [hw]; rfl
      exact h.setWaiter (.inr (h.others hin)) (fun he => by cases he)
  | unlock hw => exact h.setWaiter (.inl rfl) (fun he => by cases he)

/-! ## Runs -/

section Runs

variable [Fintype ω] {xs : List (Act ι α ω)} {a : α} {k : κ} {w : ω} {p : WaitPos}

theorem step_notify (hw : s.waiters w = .blocked) (hk : P.notify? (s.agents a) = some k) :
    s.step P (.notify a (some w)) = some ((s.setAgent a k).setWaiter w .woken) := by
  simp [step, hw, hk]

theorem step_lock (hfree : s.Free) (hp : (s.waiters w).locked = some p) :
    s.step P (.lock w) = some (s.setWaiter w p) := by
  simp [step, hfree, hp]

theorem step_test (hw : s.waiters w = .testing) (hready : P.ready s.value = true) :
    s.step P (.test w) = some (s.setWaiter w (.leaving true)) := by
  simp [step, hw, hready]

theorem step_unlock {b : Bool} (hw : s.waiters w = .leaving b) :
    s.step P (.unlock w) = some (s.setWaiter w (.ended b)) := by
  simp [step, hw]

theorem tested_run {v : σ} (h : Machine.run (step P) (State.init v k) xs = some s) : s.Tested P :=
  Machine.run_invariant (Tested P) (fun _ _ _ ht hs => ht.move (step_move hs)) xs _ s (Tested.init v k) h

/-- **A wait ends with the truth**: with what the predicate says when the lock is released. -/
theorem ended_eq {v : σ} (h : Machine.run (step P) (State.init v k) xs = some s)
    (hs : s.step P (.unlock w) = some s') : s'.waiters w = .ended (P.ready s.value) := by
  cases step_move hs with
  | unlock hw =>
      rw [waiters_setWaiter, if_pos rfl, (tested_run h).leaving w _ hw]

/-- In every run in which waiters come one at a time nobody is forgotten. -/
theorem woken_run (hP : P.Announces) {v : σ} (h : Machine.run (step P) (State.init v k) xs = some s)
    (hone : Machine.Guarded (step P) OneAtATime (State.init v k) xs) : s.Woken P := by
  have hboth := Machine.run_guarded_invariant (fun s : State σ κ α ω => s.Tested P ∧ s.Woken P)
    (fun s x s' hi hok hs => ⟨hi.1.move (step_move hs), hi.2.move hP hi.1 hok (step_move hs)⟩)
    xs _ s ⟨Tested.init v k, Woken.init v k⟩ hone h
  exact hboth.2

/-- **No wake-up is lost**: a waiter blocked on a value that is ready is woken by an agent that is about to notify,
    and its wait then ends with the predicate true. -/
theorem wait_ends (hP : P.Announces) {v : σ} (h : Machine.run (step P) (State.init v k) xs = some s)
    (hone : Machine.Guarded (step P) OneAtATime (State.init v k) xs) (hw : s.waiters w = .blocked)
    (hready : P.ready s.value = true) :
    ∃ a t, Machine.run (step P) s [.notify a (some w), .lock w, .test w, .unlock w] = some t
      ∧ t.waiters w = .ended true := by
  have hwoken := woken_run hP h hone
  obtain ⟨a, ha⟩ := hwoken.woken w hw hready
  obtain ⟨k', hk'⟩ := Option.isSome_iff_exists.mp ha
  have hin : (s.waiters w).outside = false := by rw [hw]; rfl
  have hothers := hwoken.others hin
  have hfree : ((s.setAgent a k').setWaiter w .woken).Free := by
    intro w'
    rw [waiters_setWaiter]
    split
    · rfl
    · next hne => exact WaitPos.holds_of_outside (hothers w' hne)
  have hself : ∀ (t : State σ κ α ω) (p : WaitPos), (t.setWaiter w p).waiters w = p := by
    intro t p
    rw [waiters_setWaiter, if_pos rfl]
  refine ⟨a, ((((s.setAgent a k').setWaiter w .woken).setWaiter w .testing).setWaiter w (.leaving true)).setWaiter w
    (.ended true), ?_, hself _ _⟩
  refine Machine.run_cons_eq_some.mpr ⟨_, step_notify hw hk', ?_⟩
  refine Machine.run_cons_eq_some.mpr ⟨_, step_lock hfree (p := .testing) (by rw [hself]; rfl), ?_⟩
  refine Machine.run_cons_eq_some.mpr ⟨_, step_test (hself _ _) hready, ?_⟩
  exact Machine.run_cons_eq_some.mpr ⟨_, step_unlock (hself _ _), rfl⟩

/-- The steps a waiter takes by itself inside a wait. -/
def InWait (w : ω) (x : Act ι α ω) : Prop := x = .lock w ∨ x = .test w ∨ x = .block w ∨ x = .elapse w

/-- **A wait need not be noticed**: when everybody is outside, a waiter can come to the end of a wait by itself, at
    once when the predicate holds and when its time is up otherwise. -/
theorem wait_alone (hout : ∀ w, (s.waiters w).outside = true) (w : ω) :
    ∃ xs : List (Act ι α ω), Machine.run (step P) s xs = some (s.setWaiter w (.leaving (P.ready s.value)))
      ∧ ∀ x ∈ xs, InWait w x := by
  have hset : ∀ p q, (s.setWaiter w p).setWaiter w q = s.setWaiter w q := by
    intro p q
    rw [setWaiter, setWaiter, setWaiter, Function.update_idem]
  have hself : ∀ p, (s.setWaiter w p).waiters w = p := by
    intro p
    rw [waiters_setWaiter, if_pos rfl]
  have hvalue : ∀ p, (s.setWaiter w p).value = s.value := fun _ => rfl
  have hfree : ∀ p : WaitPos, p.holds = false → (s.setWaiter w p).Free := by
    intro p hp w'
    rw [waiters_setWaiter]
    split
    · exact hp
    · exact WaitPos.holds_of_outside (hout w')
  have hlock : s.step P (.lock w) = some (s.setWaiter w .testing) := by
    refine step_lock (fun w' => WaitPos.holds_of_outside (hout w')) ?_
    have hw := hout w
    cases hpos : s.waiters w with
    | idle | ended => rfl
    | _ =>
        rw [hpos] at hw
        cases hw
  cases hready : P.ready s.value with
  | true =>
      -- the first test already succeeds
      refine ⟨[.lock w, .test w], ?_, ?_⟩
      · refine Machine.run_cons_eq_some.mpr ⟨_, hlock, ?_⟩
        refine Machine.run_cons_eq_some.mpr ⟨_, step_test (hself _) hready, ?_⟩
        rw [hset, Machine.run_nil]
      · simp [InWait]
  | false =>
      -- the time elapses, and the last test fails as the first did
      refine ⟨[.lock w, .test w, .block w, .elapse w, .lock w, .test w], ?_, ?_⟩
      · refine Machine.run_cons_eq_some.mpr ⟨_, hlock, ?_⟩
        refine Machine.run_cons_eq_some.mpr ⟨s.setWaiter w .refused, by simp [step, hself, hready, hset, hvalue], ?_⟩
        refine Machine.run_cons_eq_some.mpr ⟨s.setWaiter w .blocked, by simp [step, hself, hset], ?_⟩
        refine Machine.run_cons_eq_some.mpr ⟨s.setWaiter w .late, by simp [step, hself, hset], ?_⟩
        refine Machine.run_cons_eq_some.mpr ⟨_, step_lock (hfree _ rfl) (p := .lastTest) (by rw [hself]; rfl), ?_⟩
        refine Machine.run_cons_eq_some.mpr
          ⟨s.setWaiter w (.leaving false), by simp [step, hself, hready, hset, hvalue], ?_⟩
        rfl
      · simp [InWait]

end Runs

end State

end Monitor
