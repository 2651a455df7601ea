import Unicomm.Lib.Family
import Unicomm.Lib.Monitor
import Unicomm.Lib.Projection
import Unicomm.Dispatcher.Service

/-!
# `Dispatcher.RunWait` — `stop` waits for the threads

Models `inc_run_count`, `dec_run_count`, `signal_run_finished` and `wait_for_run_finished` of the dispatcher as an
instance of `Lib.Monitor`: the threads that enter and leave `run` are its agents, the calls of `actually_stop` its
waiters. `Dispatcher.Service` takes the wait as one step that may happen at any time and reads `run_count()`; here it
is the timed wait on `_run_cond_var` that it is in the source. `WaitingService` puts the two together, and its runs are
those of the service once the steps of the wait are taken out (`service_run_iff`).

A thread may be inside `run` and, in a handler, wait for itself; it is an agent and a waiter then.
-/

namespace Unicomm

/-- Where a thread stands in `run`. -/
inductive RunnerPos where
  | outside
  /-- Between `inc_run_count` and `dec_run_count`. -/
  | inside
  /-- `dec_run_count` returned 0; `signal_run_finished` comes next. -/
  | signalling
  deriving DecidableEq, Repr

def RunnerPos.isInside (p : RunnerPos) : Bool := p == .inside

/-- What `run` does under `_run_mutex`. -/
inductive RunCountOp where
  | incRunCount
  | decRunCount
  deriving DecidableEq, Repr

namespace RunWait

/-- `is_run_finished`. -/
def isRunFinished (runCount : Nat) : Bool := runCount == 0

/-- `inc_run_count` and `dec_run_count`, and where `run` goes on. Only a thread that counted itself counts itself off,
    so the counter never is below zero (`counted_run`). -/
def changeRunCount : RunCountOp → RunnerPos → Nat → Option (RunnerPos × Nat)
  | .incRunCount, .outside, n => some (.inside, n + 1)
  | .decRunCount, .inside, n  => some (if n - 1 = 0 then .signalling else .outside, n - 1)
  | _, _, _                   => none

/-- `signal_run_finished`, which notifies with the mutex released; `run` returns. -/
def signalRunFinished : RunnerPos → Option RunnerPos
  | .signalling => some .outside
  | _           => none

/-- The counter, its mutex and its condition variable. -/
def protocol : Monitor.Protocol Nat RunnerPos RunCountOp where
  ready   := isRunFinished
  change  := changeRunCount
  notify? := signalRunFinished

/-- What a change does, and from where. -/
theorem changeRunCount_cases {op : RunCountOp} {p p' : RunnerPos} {n n' : Nat}
    (h : changeRunCount op p n = some (p', n')) :
    (op = .incRunCount ∧ p = .outside ∧ p' = .inside ∧ n' = n + 1)
      ∨ (op = .decRunCount ∧ p = .inside ∧ p' = (if n - 1 = 0 then .signalling else .outside) ∧ n' = n - 1) := by
  cases op with
  | incRunCount =>
      cases p with
      | outside              => cases h; exact .inl ⟨rfl, rfl, rfl, rfl⟩
      | inside | signalling  => cases h
  | decRunCount =>
      cases p with
      | inside               => cases h; exact .inr ⟨rfl, rfl, rfl, rfl⟩
      | outside | signalling => cases h

variable {N M : Nat}

/-- `N` threads, and `M` calls of `wait_for_run_finished`. -/
abbrev State (N M : Nat) := Monitor.State Nat RunnerPos (Fin N) (Fin M)

abbrev Act (N M : Nat) := Monitor.Act RunCountOp (Fin N) (Fin M)

/-- A constructed dispatcher: `_run_count` is 0 and no thread in `run`. -/
def init : State N M := Monitor.State.init 0 .outside

/-- No thread is inside `run`. -/
def NoneInside (s : State N M) : Prop := ∀ t, (s.agents t).isInside = false

instance (s : State N M) : Decidable (NoneInside s) :=
  inferInstanceAs (Decidable (∀ t, (s.agents t).isInside = false))

/-! ## The counter -/

/-- `_run_count` is the number of threads inside `run`. -/
def Counted (s : State N M) : Prop := s.value = Family.count RunnerPos.isInside s.agents

/-- A thread moves, and the counter with it. -/
theorem Counted.setAgent {s : State N M} (h : Counted s) {t : Fin N} {p : RunnerPos} {n : Nat}
    (hadd : n + (s.agents t).isInside.toNat = s.value + p.isInside.toNat) :
    Counted { s.setAgent t p with value := n } := by
  have hcount := Family.count_update RunnerPos.isInside s.agents t p
  have hval : s.value = Family.count RunnerPos.isInside s.agents := h
  show n = Family.count RunnerPos.isInside (Function.update s.agents t p)
  omega

/-- A thread inside `run` is one of those that are counted. -/
theorem Counted.pos {s : State N M} (h : Counted s) {t : Fin N} (hpos : s.agents t = .inside) : 0 < s.value := by
  rw [show s.value = Family.count RunnerPos.isInside s.agents from h]
  exact Family.count_pos (i := t) (by rw [hpos]; rfl)

theorem Counted.change {s : State N M} (h : Counted s) {t : Fin N} {op : RunCountOp} {p : RunnerPos} {n : Nat}
    (hc : changeRunCount op (s.agents t) s.value = some (p, n)) : Counted { s.setAgent t p with value := n } := by
  apply h.setAgent
  have hval : s.value = Family.count RunnerPos.isInside s.agents := h
  rcases changeRunCount_cases hc with ⟨-, hpos, rfl, rfl⟩ | ⟨-, hpos, rfl, rfl⟩
  · rw [hpos]
    rfl
  · have hpos' := h.pos hpos
    have hone : (if s.value - 1 = 0 then RunnerPos.signalling else .outside).isInside.toNat = 0 := by
      split <;> rfl
    rw [hone, hpos, show RunnerPos.inside.isInside.toNat = 1 from rfl]
    omega

theorem Counted.signal {s : State N M} (h : Counted s) {t : Fin N} {p : RunnerPos}
    (hp : signalRunFinished (s.agents t) = some p) : Counted (s.setAgent t p) := by
  refine h.setAgent (n := s.value) ?_
  cases hpos : s.agents t with
  | signalling =>
      rw [hpos] at hp
      cases hp
      rfl
  | outside | inside =>
      rw [hpos] at hp
      cases hp

/-- Every move keeps it; what a call of the wait does is not counted. -/
theorem Counted.move {s s' : State N M} {x : Act N M} (h : Counted s)
    (hm : Monitor.State.Move protocol s x s') : Counted s' := by
  cases hm with
  | change _ hc => exact h.change hc
  | notify _ hk | notifyNone _ hk => exact h.signal hk
  | lock _ | test _ | lastTest _ | block _ | spurious _ | elapse _ | unlock _ => exact h

variable {xs : List (Act N M)} {s s' : State N M} {w : Fin M}

theorem Counted.init : Counted (init : State N M) :=
  (Family.count_const (p := RunnerPos.isInside) (a := .outside) rfl).symm

theorem counted_run (h : Machine.run (Monitor.State.step protocol) init xs = some s) : Counted s :=
  Machine.run_invariant Counted (fun _ _ _ hi hs => hi.move (Monitor.State.step_move hs)) xs _ s
    Counted.init h

/-- `is_run_finished` tells whether no thread is inside `run`. -/
theorem isRunFinished_eq (h : Counted s) : isRunFinished s.value = decide (NoneInside s) := by
  have hval : s.value = Family.count RunnerPos.isInside s.agents := h
  by_cases hnone : NoneInside s
  · rw [decide_eq_true hnone, isRunFinished, hval, Family.count_eq_zero hnone]
    rfl
  · rw [decide_eq_false hnone, isRunFinished, beq_eq_false_iff_ne]
    intro hzero
    apply hnone
    intro t
    by_contra hin
    have hpos := Family.count_pos (Bool.eq_true_of_not_eq_false hin)
    omega

/-! ## The wait -/

/-- The thread that makes the counter 0 signals. -/
theorem announces : protocol.Announces := by
  intro op p n p' n' hc hready
  replace hready : n' = 0 := beq_iff_eq.mp hready
  rcases changeRunCount_cases hc with ⟨-, -, -, rfl⟩ | ⟨-, -, rfl, rfl⟩
  · cases hready
  · rw [if_pos hready]
    rfl

/-- **Stopping waits for the threads, and hears of the last one.** In every run `_run_count` is the number of threads
    inside `run`, and a wait ends with whether there is none. When calls of `stop` come one at a time, one that is
    blocked while no thread is inside `run` can be woken by a thread that is about to signal, and then ends with
    success. -/
theorem stop_waits (h : Machine.run (Monitor.State.step protocol) init xs = some s) :
    s.value = Family.count RunnerPos.isInside s.agents
      ∧ (∀ w s', s.step protocol (.unlock w) = some s' → s'.waiters w = .ended (decide (NoneInside s)))
      ∧ (Machine.Guarded (Monitor.State.step protocol) Monitor.State.OneAtATime init xs →
          ∀ w, s.waiters w = .blocked → NoneInside s →
            ∃ t s', Machine.run (Monitor.State.step protocol) s
                [.notify t (some w), .lock w, .test w, .unlock w] = some s' ∧ s'.waiters w = .ended true) := by
  have hcounted := counted_run h
  refine ⟨hcounted, fun w s' hs => ?_, fun hone w hw hnone => ?_⟩
  · rw [Monitor.State.ended_eq h hs]
    exact congrArg _ (isRunFinished_eq hcounted)
  · have hready : isRunFinished s.value = true := by
      rw [isRunFinished_eq hcounted]
      exact decide_eq_true hnone
    exact Monitor.State.wait_ends announces h hone hw hready

/-- A thread enters `run`, a call of `stop` blocks, and the thread leaves. -/
def stopRun (t : Fin N) (w : Fin M) : List (Act N M) :=
  [.change t .incRunCount, .lock w, .test w, .block w, .change t .decRunCount]

theorem stop_waits_run : ∃ s : State 1 1, Machine.run (Monitor.State.step protocol) init (stopRun 0 0) = some s
    ∧ ∃ t s', Machine.run (Monitor.State.step protocol) s [.notify t (some 0), .lock 0, .test 0, .unlock 0] = some s'
      ∧ s'.waiters 0 = .ended true := by
  obtain ⟨s, hs⟩ : ∃ s : State 1 1, Machine.run (Monitor.State.step protocol) init (stopRun 0 0) = some s := ⟨_, rfl⟩
  have hone : Machine.Guarded (Monitor.State.step protocol) Monitor.State.OneAtATime (init : State 1 1)
      (stopRun 0 0) := by
    decide
  refine ⟨s, hs, (stop_waits hs).2.2 hone 0 ?_ ?_⟩
  · cases hs
    rfl
  · cases hs
    decide

/-- The calls of `stop` have to come one at a time: of two that are blocked, `notify_one` wakes one only. The other
    stays blocked until its time is up, with no thread inside `run` and none that signals. -/
theorem stop_stranded : ∃ s : State 1 2,
    Machine.run (Monitor.State.step protocol) init
        [.change 0 .incRunCount, .lock 0, .test 0, .block 0, .lock 1, .test 1, .block 1, .change 0 .decRunCount,
          .notify 0 (some 0), .lock 0, .test 0, .unlock 0] = some s
      ∧ s.waiters 0 = .ended true ∧ s.waiters 1 = .blocked ∧ ∀ t, s.agents t = .outside :=
  ⟨_, rfl, rfl, rfl, by decide⟩

end RunWait

/-! ## The dispatcher that waits -/

/-- A dispatcher whose `stop` waits for the threads on `_run_cond_var`. Each thread is an agent, and a waiter when it
    calls `stop`. -/
structure WaitingService (N : Nat) where
  service : ServiceState N
  runWait : RunWait.State N N

namespace WaitingService

open RunWait

variable {N : Nat}

inductive Act (N : Nat) where
  | service (a : ServiceState.Act N)
  /-- A step of the wait, or of the signal, that is none of the service. -/
  | wait (x : RunWait.Act N N)
  deriving DecidableEq

/-- What a step of the service does under `_run_mutex`. -/
def underMutex : ServiceState.Act N → Option (RunWait.Act N N)
  | .run t .enter     => some (.change t .incRunCount)
  | .run t .leave     => some (.change t .decRunCount)
  | .call t .waitEnds => some (.unlock t)
  | _                 => none

/-- The steps of the wait a thread takes inside `wait_for_run_finished`. The counter is changed, and the wait left,
    with the service. -/
def inWait (s : ServiceState N) : RunWait.Act N N → Bool
  | .lock t | .test t | .block t | .spurious t | .elapse t => (s.threads t).call == .stopWaiting
  | .notify _ _                                            => true
  | .change _ _ | .unlock _                                => false

/-- A constructed dispatcher. -/
def init : WaitingService N := ⟨.init, RunWait.init⟩

/-- One step; `none` when it is not possible. -/
def step (w : WaitingService N) : Act N → Option (WaitingService N)
  | .service a =>
      match underMutex a with
      | some x =>
          (w.service.step a).bind (fun s => (w.runWait.step protocol x).map (fun v => ⟨s, v⟩))
      | none   => (w.service.step a).map (fun s => { w with service := s })
  | .wait x    =>
      if inWait w.service x then (w.runWait.step protocol x).map (fun v => { w with runWait := v }) else none

/-- The step of the service, if it is one. -/
def Act.service? : Act N → Option (ServiceState.Act N)
  | .service a => some a
  | .wait _    => none

/-- The step on the counter and the condition variable, if it is one. -/
def Act.runWait? : Act N → Option (RunWait.Act N N)
  | .service a => underMutex a
  | .wait x    => some x

variable {w w' : WaitingService N} {xs : List (Act N)}

/-- What a step is for the service, and what it is for the wait. -/
theorem step_parts {x : Act N} (h : w.step x = some w') :
    Machine.run ServiceState.step w.service x.service?.toList = some w'.service
      ∧ Machine.run (Monitor.State.step protocol) w.runWait x.runWait?.toList = some w'.runWait := by
  cases x with
  | service a =>
      simp only [step] at h
      cases hx : underMutex a with
      | some x =>
          rw [hx] at h
          obtain ⟨s, hs, h⟩ := Option.bind_eq_some_iff.mp h
          obtain ⟨v, hv, rfl⟩ := Option.map_eq_some_iff.mp h
          refine ⟨Machine.run_cons_eq_some.mpr ⟨s, hs, rfl⟩, ?_⟩
          rw [Act.runWait?, hx]
          exact Machine.run_cons_eq_some.mpr ⟨v, hv, rfl⟩
      | none =>
          rw [hx] at h
          obtain ⟨s, hs, rfl⟩ := Option.map_eq_some_iff.mp h
          refine ⟨Machine.run_cons_eq_some.mpr ⟨s, hs, rfl⟩, ?_⟩
          rw [Act.runWait?, hx]
          rfl
  | wait x =>
      simp only [step] at h
      split at h
      · obtain ⟨v, hv, rfl⟩ := Option.map_eq_some_iff.mp h
        exact ⟨rfl, Machine.run_cons_eq_some.mpr ⟨v, hv, rfl⟩⟩
      · cases h

/-- The service runs as it does alone. -/
theorem run_service (h : Machine.run step init xs = some w) :
    Machine.run ServiceState.step .init (xs.filterMap Act.service?) = some w.service :=
  Machine.run_filterMap service Act.service? (fun _ _ _ hs => (step_parts hs).1) h

/-- The counter and its condition variable run as they do alone. -/
theorem run_runWait (h : Machine.run step init xs = some w) :
    Machine.run (Monitor.State.step protocol) RunWait.init (xs.filterMap Act.runWait?) = some w.runWait :=
  Machine.run_filterMap runWait Act.runWait? (fun _ _ _ hs => (step_parts hs).2) h

/-- A step of the service that does nothing under `_run_mutex` leaves the counter, and nobody enters or leaves `run`. -/
theorem underMutex_frame {s s' : ServiceState N} {a : ServiceState.Act N} (hm : ServiceState.Move s a s')
    (ha : underMutex a = none) :
    s'.runCount = s.runCount ∧ ∀ t, (s'.threads t).run = .outside ↔ (s.threads t).run = .outside := by
  constructor
  · cases hm with
    | enter | leave => cases ha
    | _ => rfl
  · intro t
    by_cases ht : t = a.thread
    · subst ht
      cases a with
      | call u op => rw [ServiceState.Act.thread, hm.run_of_call]
      | run u op =>
          cases hm with
          | enter | leave => cases ha
          | kickHandler => exact Iff.rfl
          | testWorking hu =>
              rw [ServiceState.Act.thread, hu, ServiceState.setThread_self]
              split <;> exact iff_of_false (fun he => by cases he) (fun he => by cases he)
          | callRun hu _ | returnRun hu =>
              rw [ServiceState.Act.thread, hu, ServiceState.setThread_self]
              exact iff_of_false (fun he => by cases he) (fun he => by cases he)
    · rw [hm.others ht]

/-- **The counter of the service is the one `_run_mutex` protects.** -/
theorem runCount_step (hcounted : Counted w.runWait) (h : w.service.runCount = w.runWait.value) {x : Act N}
    (hs : w.step x = some w') : w'.service.runCount = w'.runWait.value := by
  cases x with
  | service a =>
      simp only [step] at hs
      cases hx : underMutex a with
      | none =>
          rw [hx] at hs
          obtain ⟨s, ha, rfl⟩ := Option.map_eq_some_iff.mp hs
          -- what happens outside the mutex leaves the counter alone on both sides
          exact (underMutex_frame (ServiceState.step_move ha) hx).1.trans h
      | some x =>
          rw [hx] at hs
          obtain ⟨s, ha, hs⟩ := Option.bind_eq_some_iff.mp hs
          obtain ⟨v, hv, rfl⟩ := Option.map_eq_some_iff.mp hs
          have hvm := Monitor.State.step_move hv
          cases ServiceState.step_move ha with
          | enter ht =>
              cases hx
              cases hvm with
              -- `++_run_count` on one side and on the other
              | change _ hc =>
                  rcases changeRunCount_cases hc with ⟨-, -, -, rfl⟩ | ⟨hop, -⟩
                  · show w.service.runCount + 1 = ((w.runWait.value + 1 : Nat) : Int)
                    omega
                  · cases hop
          | leave ht =>
              cases hx
              cases hvm with
              | change _ hc =>
                  rcases changeRunCount_cases hc with ⟨hop, -⟩ | ⟨-, hpos, -, rfl⟩
                  · cases hop
                  -- a thread that leaves is counted, so the difference of the naturals is that of the integers
                  · have hone := hcounted.pos hpos
                    show w.service.runCount - 1 = ((w.runWait.value - 1 : Nat) : Int)
                    omega
          -- the end of a wait frees the mutex and changes no counter
          | finished ht _ | elapsed ht _ =>
              cases hx
              cases hvm with
              | unlock _ => exact h
          | refused hop => rcases hop with rfl | rfl | rfl <;> cases hx
          | _ => cases hx
  | wait x =>
      simp only [step] at hs
      split at hs
      · next hin =>
          obtain ⟨v, hv, rfl⟩ := Option.map_eq_some_iff.mp hs
          have hval : v.value = w.runWait.value := by
            cases Monitor.State.step_move hv with
            | change _ _ => cases hin
            | _ => rfl
          rw [hval]
          exact h
      · cases hs

/-- In every run the counter of the service is the one the wait tests. -/
theorem runCount_run (h : Machine.run step init xs = some w) : w.service.runCount = w.runWait.value := by
  have hboth := Machine.run_invariant
    (fun w : WaitingService N => Counted w.runWait ∧ w.service.runCount = w.runWait.value)
    (fun w x w' hi hs => ⟨?_, runCount_step hi.1 hi.2 hs⟩) xs _ w ⟨Counted.init, rfl⟩ h
  · exact hboth.2
  · -- what the wait does in the step is a step of its own, or nothing
    exact Machine.run_invariant Counted (fun _ _ _ hi hs => hi.move (Monitor.State.step_move hs)) _ _ _ hi.1
      (step_parts hs).2

/-- **The wait ends as the service takes it to end**: `wait_for_run_finished` returns whether no thread is inside
    `run`, and `actually_stop` finalizes exactly then. -/
theorem waitEnds_result (h : Machine.run step init xs = some w) {t : Fin N}
    (hs : w.step (.service (.call t .waitEnds)) = some w') :
    w'.runWait.waiters t = .ended (decide (w.service.runCount = 0))
      ∧ (w'.service.threads t).call = if w.service.runCount = 0 then .finalizing else .idle := by
  obtain ⟨s, ha, hs⟩ := Option.bind_eq_some_iff.mp hs
  obtain ⟨v, hv, rfl⟩ := Option.map_eq_some_iff.mp hs
  have hcount := runCount_run h
  constructor
  · have hready : isRunFinished w.runWait.value = decide (w.service.runCount = 0) := by
      rw [isRunFinished, hcount, beq_eq_decide]
      exact decide_eq_decide.mpr (by omega)
    rw [Monitor.State.ended_eq (run_runWait h) hv]
    exact congrArg _ hready
  · cases ServiceState.step_move ha with
    | finished _ hrun =>
        rw [if_pos hrun, ServiceState.setCall_self]
        rfl
    | elapsed _ hrun =>
        rw [if_neg hrun, ServiceState.setCall_self]
        rfl
    | refused hop => rcases hop with h | h | h <;> cases h

/-! ### Every run of the service -/

/-- Where a thread of the service stands that is not about to signal. -/
def runnerPos (x : ServiceThread) : RunnerPos := if x.run = .outside then .outside else .inside

/-- Between two steps of the service nobody waits and nobody is about to signal. -/
structure Quiet (s : ServiceState N) (w : WaitingService N) : Prop where
  service  : w.service = s
  runCount : s.runCount = w.runWait.value
  counted  : Counted w.runWait
  agents   : w.runWait.agents = runnerPos ∘ s.threads
  waiters  : ∀ t, (w.runWait.waiters t).outside = true

theorem Quiet.init : Quiet (.init : ServiceState N) init := ⟨rfl, rfl, Counted.init, rfl, fun _ => rfl⟩

/-- The dispatcher takes the step of the service, with those of the wait around it, and is quiet again. -/
def Answers (w : WaitingService N) (a : ServiceState.Act N) (s : ServiceState N) : Prop :=
  ∃ xs w', Machine.run step w xs = some w' ∧ Quiet s w' ∧ xs.filterMap Act.service? = [a]

theorem Quiet.free {s : ServiceState N} (h : Quiet s w) : w.runWait.Free :=
  fun t => Monitor.WaitPos.holds_of_outside (h.waiters t)

theorem step_service {a : ServiceState.Act N} {x : RunWait.Act N N} {s : ServiceState N} {v : RunWait.State N N}
    (hx : underMutex a = some x) (hs : w.service.step a = some s) (hv : w.runWait.step protocol x = some v) :
    w.step (.service a) = some ⟨s, v⟩ := by
  simp only [step, hx, hs, hv, Option.bind_some, Option.map_some]

/-- The steps of a wait are steps of the dispatcher. -/
theorem run_wait {t : Fin N} (ht : (w.service.threads t).call = .stopWaiting) {ys : List (RunWait.Act N N)}
    (hys : ∀ y ∈ ys, Monitor.State.InWait t y) {u v : RunWait.State N N}
    (hrun : Machine.run (Monitor.State.step protocol) u ys = some v) :
    Machine.run step ⟨w.service, u⟩ (ys.map .wait) = some ⟨w.service, v⟩ := by
  induction ys generalizing u with
  | nil => exact congrArg _ (congrArg _ (Option.some.inj hrun))
  | cons y ys ih =>
      obtain ⟨u', hy, hrest⟩ := Machine.run_cons_eq_some.mp hrun
      have hin : inWait w.service y = true := by
        rcases hys y List.mem_cons_self with rfl | rfl | rfl | rfl <;> exact beq_iff_eq.mpr ht
      refine Machine.run_cons_eq_some.mpr
        ⟨⟨w.service, u'⟩, ?_, ih (fun z hz => hys z (List.mem_cons_of_mem _ hz)) hrest⟩
      simp only [step, hin, hy, if_true, Option.map_some]

variable {s s' : ServiceState N} {t : Fin N}

/-- A thread that enters counts itself. -/
theorem Quiet.enter (h : Quiet s w) (ht : s.threads t = ⟨.outside, .idle⟩)
    (hs : s.step (.run t .enter) = some ({ s with runCount := s.runCount + 1 }.setThread t ⟨.entered, .idle⟩)) :
    w.Answers (.run t .enter) ({ s with runCount := s.runCount + 1 }.setThread t ⟨.entered, .idle⟩) := by
  obtain rfl := h.service
  have hagent : w.runWait.agents t = .outside := by rw [h.agents, Function.comp_apply, ht]; rfl
  have hv : w.runWait.step protocol (.change t .incRunCount)
      = some { w.runWait.setAgent t .inside with value := w.runWait.value + 1 } := by
    rw [Monitor.State.step, if_pos h.free, hagent]
    rfl
  refine ⟨[.service (.run t .enter)], _, Machine.run_cons_eq_some.mpr ⟨_, step_service rfl hs hv, rfl⟩, ?_, rfl⟩
  refine ⟨rfl, ?_, h.counted.move (Monitor.State.step_move hv), ?_, h.waiters⟩
  · show w.service.runCount + 1 = ((w.runWait.value + 1 : Nat) : Int)
    rw [h.runCount]
    rfl
  · show Function.update w.runWait.agents t .inside = _
    rw [h.agents]
    exact (Function.comp_update runnerPos w.service.threads t ⟨.entered, .idle⟩).symm

/-- The signal of the last thread finds nobody blocked. -/
theorem Quiet.signal (h : Quiet s w) (n : Nat) :
    Monitor.State.step protocol { w.runWait.setAgent t .signalling with value := n } (.notify t none)
      = some { w.runWait.setAgent t .outside with value := n } := by
  have hnone : Monitor.State.NoneBlocked { w.runWait.setAgent t .signalling with value := n } := by
    intro u hu
    have hout := h.waiters u
    rw [show w.runWait.waiters u = .blocked from hu] at hout
    cases hout
  rw [Monitor.State.step, if_pos hnone]
  show (signalRunFinished (Function.update w.runWait.agents t .signalling t)).map _ = _
  rw [Function.update_self]
  show some (Monitor.State.setAgent _ t _) = _
  rw [Monitor.State.setAgent, Monitor.State.setAgent, Monitor.State.setAgent, Function.update_idem]

/-- A thread that leaves counts itself off and signals when it was the last. -/
theorem Quiet.leave (h : Quiet s w) (ht : s.threads t = ⟨.leaving, .idle⟩)
    (hs : s.step (.run t .leave) = some ({ s with runCount := s.runCount - 1 }.setThread t ⟨.outside, .idle⟩)) :
    w.Answers (.run t .leave) ({ s with runCount := s.runCount - 1 }.setThread t ⟨.outside, .idle⟩) := by
  obtain rfl := h.service
  have hagent : w.runWait.agents t = .inside := by rw [h.agents, Function.comp_apply, ht]; rfl
  have hone := h.counted.pos hagent
  have hcount : w.service.runCount - 1 = ((w.runWait.value - 1 : Nat) : Int) := by
    rw [h.runCount]
    omega
  have hagents : Function.update w.runWait.agents t .outside
      = runnerPos ∘ Function.update w.service.threads t ⟨.outside, .idle⟩ := by
    rw [h.agents]
    exact (Function.comp_update runnerPos w.service.threads t ⟨.outside, .idle⟩).symm
  have hv : w.runWait.step protocol (.change t .decRunCount)
      = some { w.runWait.setAgent t (if w.runWait.value - 1 = 0 then .signalling else .outside) with
          value := w.runWait.value - 1 } := by
    rw [Monitor.State.step, if_pos h.free, hagent]
    rfl
  have hcounted := h.counted.move (Monitor.State.step_move hv)
  by_cases hzero : w.runWait.value - 1 = 0
  · -- it was the last one, and signals before anybody else does anything
    rw [if_pos hzero] at hv hcounted
    have hsignal := h.signal (t := t) (w.runWait.value - 1)
    refine ⟨[.service (.run t .leave), .wait (.notify t none)],
      ⟨{ w.service with runCount := w.service.runCount - 1 }.setThread t ⟨.outside, .idle⟩,
        { w.runWait.setAgent t .outside with value := w.runWait.value - 1 }⟩,
      Machine.run_cons_eq_some.mpr ⟨_, step_service rfl hs hv, Machine.run_cons_eq_some.mpr ⟨_, ?_, rfl⟩⟩, ?_, rfl⟩
    · exact congrArg (Option.map _) hsignal
    · exact ⟨rfl, hcount, hcounted.move (Monitor.State.step_move hsignal), hagents, h.waiters⟩
  · rw [if_neg hzero] at hv hcounted
    exact ⟨[.service (.run t .leave)], _, Machine.run_cons_eq_some.mpr ⟨_, step_service rfl hs hv, rfl⟩,
      ⟨rfl, hcount, hcounted, hagents, h.waiters⟩, rfl⟩

/-- A wait that ends is one that took its time or found nobody inside `run`. -/
theorem Quiet.waitEnds (h : Quiet s w) (ht : (s.threads t).call = .stopWaiting)
    (hs : s.step (.call t .waitEnds) = some s') (hrun : s'.runCount = s.runCount)
    (hthreads : runnerPos ∘ s'.threads = runnerPos ∘ s.threads) : w.Answers (.call t .waitEnds) s' := by
  obtain rfl := h.service
  obtain ⟨ys, hys, hin⟩ := Monitor.State.wait_alone (P := protocol) h.waiters t
  have hwait := run_wait ht hin hys
  have hunlock : Monitor.State.step protocol (w.runWait.setWaiter t (.leaving (protocol.ready w.runWait.value)))
      (.unlock t) = _ := Monitor.State.step_unlock (by rw [Monitor.State.waiters_setWaiter, if_pos rfl])
  have hend := step_service (w := ⟨w.service, w.runWait.setWaiter t (.leaving (protocol.ready w.runWait.value))⟩)
    rfl hs hunlock
  refine ⟨ys.map .wait ++ [.service (.call t .waitEnds)], _, Machine.run_snoc hwait hend, ?_, ?_⟩
  · refine ⟨rfl, hrun.trans h.runCount, h.counted, h.agents.trans hthreads.symm, fun u => ?_⟩
    rw [Monitor.State.waiters_setWaiter, Monitor.State.waiters_setWaiter]
    split
    · rfl
    · exact h.waiters u
  · have hnone : ys.filterMap (Act.service? ∘ Act.wait) = ([] : List (ServiceState.Act N)) :=
      List.filterMap_eq_nil_iff.mpr (fun _ _ => rfl)
    rw [List.filterMap_append, List.filterMap_map, hnone]
    rfl

/-- **Each step of the service is one of the dispatcher that waits**, with what the wait does around it. -/
theorem Quiet.step (h : Quiet s w) {a : ServiceState.Act N} (hs : s.step a = some s') : w.Answers a s' := by
  have hm := ServiceState.step_move hs
  cases hx : underMutex a with
  | none =>
      obtain ⟨hcount, hrun⟩ := underMutex_frame hm hx
      obtain rfl := h.service
      refine ⟨[.service a], { w with service := s' }, Machine.run_cons_eq_some.mpr ⟨_, ?_, rfl⟩, ?_, rfl⟩
      · simp only [WaitingService.step, hx, hs, Option.map_some]
      · refine ⟨rfl, hcount.trans h.runCount, h.counted, h.agents.trans ?_, h.waiters⟩
        funext t
        exact if_congr (hrun t).symm rfl rfl
  | some x =>
      cases hm with
      | enter ht => exact h.enter ht hs
      | leave ht => exact h.leave ht hs
      | finished ht _ | elapsed ht _ =>
          refine h.waitEnds ht hs rfl (funext fun u => ?_)
          rw [Function.comp_apply, Function.comp_apply, runnerPos, runnerPos, (ServiceState.step_move hs).run_of_calls]
      | refused hop => rcases hop with rfl | rfl | rfl <;> cases hx
      | _ => cases hx

/-- **`waitEnds` is the timed wait.** The runs of the service are, with the steps of the wait taken out, the runs of
    the dispatcher that waits: taking the wait as one step that may happen at any time adds none and forgets none. -/
theorem service_run_iff {as : List (ServiceState.Act N)} {s : ServiceState N} :
    Machine.run ServiceState.step .init as = some s
      ↔ ∃ xs w, Machine.run step init xs = some w ∧ w.service = s ∧ xs.filterMap Act.service? = as := by
  constructor
  · intro hrun
    obtain ⟨xs, w, hxs, hquiet, hview⟩ :=
      Machine.run_simulated Quiet Act.service? (fun _ _ _ _ hquiet hs => hquiet.step hs) Quiet.init hrun
    exact ⟨xs, w, hxs, hquiet.service, hview⟩
  · rintro ⟨xs, w, hxs, rfl, rfl⟩
    exact run_service hxs

end WaitingService

end Unicomm
