import Mathlib.Logic.Function.Basic
import Unicomm.Lib.Machine

/-!
# `Dispatcher.Service` — a dispatcher over its start, stop and reset cycles

Models `run`, `stop`, `reset` and `kick_dispatcher` of `dispatcher.cpp` step by step. `Dispatcher.System` looks
at a dispatcher that is running; here threads enter and leave `run`, and the `io_service` is created, stopped
and destroyed under them. What the handlers do is left out, except that a kick handler counts itself off.

A thread stands somewhere in `run` (`RunPos`) and somewhere in a call of one of the other three (`CallPos`),
which it makes from outside `run` or from a handler. Every load or store of a member two threads share is a
step of its own. The waits of `stop` may end at any time: the one for the clients changes nothing and is not a
step, the one for the threads ends as `wait_for_run_finished` says.
-/

namespace Unicomm

/-! ## State -/

/-- The `io_service` a dispatcher owns. `gen` tells it from the ones before it. -/
structure IoService where
  gen     : Nat
  stopped : Bool
  /-- The kick handlers that are queued and not yet started. -/
  kicks   : Nat
  deriving DecidableEq, Repr

/-- Where a thread stands in `run`. -/
inductive RunPos where
  | outside
  /-- In front of `is_working()`. -/
  | entered
  /-- `is_working()` was true; `ioservice()` is evaluated next. -/
  | evaluating
  /-- Inside `io_service::run` of service `gen`. -/
  | running (gen : Nat)
  /-- `is_working()` was false. -/
  | leaving
  deriving DecidableEq, Repr

/-- Where a thread stands in `kick_dispatcher`, `stop` or `reset`. -/
inductive CallPos where
  | idle
  /-- `_kick_count < run_count()` held. -/
  | kickAllowed
  /-- `_kick_count` is incremented; the handler is posted next. -/
  | kickCounted
  /-- `is_working()` was true. -/
  | stopAllowed
  | stopCleared
  /-- The service is stopped; waiting for `run_count()` to become zero. -/
  | stopWaiting
  | finalizing
  /-- `is_working()` was false. -/
  | resetAllowed
  /-- `_is_working` is set; `initialize` comes next. -/
  | resetSet
  deriving DecidableEq, Repr

structure ServiceThread where
  run  : RunPos
  call : CallPos
  deriving DecidableEq, Repr

/-- The thread moves on within its call. -/
def ServiceThread.withCall (x : ServiceThread) (c : CallPos) : ServiceThread := { x with call := c }

/-- The members of a dispatcher these functions work on, and its threads. -/
structure ServiceState (N : Nat) where
  isWorking : Bool
  ioservice : Option IoService
  /-- The number of services created so far. -/
  gens      : Nat
  kickCount : Int
  runCount  : Int
  threads   : Fin N → ServiceThread

/-! ## Steps -/

/-- The steps of `run`, and of a kick handler it executes. -/
inductive RunOp where
  | enter
  | testWorking
  | callRun
  | returnRun
  | leave
  | kickHandler
  deriving DecidableEq, Repr

/-- The steps of `kick_dispatcher`, `stop` and `reset`. -/
inductive CallOp where
  | canKick
  | incKickCount
  | post
  | stop
  | clearIsWorking
  /-- `call_on_stop` or `disconnect_all` threw; `actually_stop` catches it and returns. -/
  | stopThrew
  | stopService
  /-- `wait_for_run_finished` ends. -/
  | waitEnds
  | finalize
  | reset
  | setIsWorking
  /-- `initialize`, of which this is what matters here. -/
  | createIoService
  deriving DecidableEq, Repr

namespace ServiceState

variable {N : Nat}

/-- Who does what. -/
inductive Act (N : Nat) where
  | run (t : Fin N) (op : RunOp)
  | call (t : Fin N) (op : CallOp)
  deriving DecidableEq

/-- The thread whose step it is. -/
def Act.thread : Act N → Fin N
  | .run t _  => t
  | .call t _ => t

/-- A constructed dispatcher: `_is_working` is true and the first service created. -/
def init : ServiceState N where
  isWorking := true
  ioservice := some ⟨0, false, 0⟩
  gens      := 1
  kickCount := 0
  runCount  := 0
  threads _ := ⟨.outside, .idle⟩

variable (s : ServiceState N)

def setThread (t : Fin N) (x : ServiceThread) : ServiceState N :=
  { s with threads := Function.update s.threads t x }

/-- Move thread `t` on within its call. -/
def setCall (t : Fin N) (c : CallPos) : ServiceState N := s.setThread t ((s.threads t).withCall c)

/-- A kick handler of the service is executed: `kick_handler` starts with `dec_kick_count`. -/
def execute (io : IoService) : ServiceState N :=
  { s with ioservice := some { io with kicks := io.kicks - 1 }, kickCount := s.kickCount - 1 }

/-- One step of a thread in `run`. It makes no step here while a handler it executes is in a call. -/
def runStep (t : Fin N) (op : RunOp) : Option (ServiceState N) :=
  match op, s.threads t with
  | .enter, ⟨.outside, .idle⟩       =>
      some ({ s with runCount := s.runCount + 1 }.setThread t ⟨.entered, .idle⟩)
  | .testWorking, ⟨.entered, .idle⟩ =>
      some (s.setThread t ⟨if s.isWorking then .evaluating else .leaving, .idle⟩)
  | .callRun, ⟨.evaluating, .idle⟩  =>
      -- a null `_ioservice` is dereferenced: no behaviour is defined
      s.ioservice.map (fun io => s.setThread t ⟨.running io.gen, .idle⟩)
  | .returnRun, ⟨.running _, .idle⟩ => some (s.setThread t ⟨.entered, .idle⟩)
  | .leave, ⟨.leaving, .idle⟩       =>
      some ({ s with runCount := s.runCount - 1 }.setThread t ⟨.outside, .idle⟩)
  | .kickHandler, ⟨.running g, .idle⟩ =>
      match s.ioservice with
      | some io => if io.gen = g ∧ io.stopped = false ∧ 0 < io.kicks then some (s.execute io) else none
      | none    => none
  | _, _ => none

/-- Calls are made from outside `run` or from a handler. -/
def canCall : RunPos → Bool
  | .outside | .running _ => true
  | _                     => false

/-- One step of a call. -/
def callStep (t : Fin N) (op : CallOp) : Option (ServiceState N) :=
  if canCall (s.threads t).run then
    match op, (s.threads t).call with
    | .canKick, .idle             => some (if s.kickCount < s.runCount then s.setCall t .kickAllowed else s)
    | .incKickCount, .kickAllowed => some ({ s with kickCount := s.kickCount + 1 }.setCall t .kickCounted)
    | .post, .kickCounted         =>
        s.ioservice.map (fun io =>
          { s with ioservice := some { io with kicks := io.kicks + 1 } }.setCall t .idle)
    | .stop, .idle                => some (if s.isWorking then s.setCall t .stopAllowed else s)
    | .clearIsWorking, .stopAllowed => some ({ s with isWorking := false }.setCall t .stopCleared)
    | .stopThrew, .stopCleared    => some (s.setCall t .idle)
    | .stopService, .stopCleared  =>
        s.ioservice.map (fun io =>
          { s with ioservice := some { io with stopped := true } }.setCall t .stopWaiting)
    | .waitEnds, .stopWaiting     => some (s.setCall t (if s.runCount = 0 then .finalizing else .idle))
    | .finalize, .finalizing      => some ({ s with ioservice := none }.setCall t .idle)
    | .reset, .idle               => some (if s.isWorking then s else s.setCall t .resetAllowed)
    | .setIsWorking, .resetAllowed  => some ({ s with isWorking := true }.setCall t .resetSet)
    | .createIoService, .resetSet   =>
        -- `_ioservice.reset(new …)`: the service before it, if there is one, is destroyed with its handlers
        some ({ s with ioservice := some ⟨s.gens, false, 0⟩, gens := s.gens + 1 }.setCall t .idle)
    | _, _ => none
  else none

/-- One step; `none` when it is not possible. -/
def step : Act N → Option (ServiceState N)
  | .run t op  => s.runStep t op
  | .call t op => s.callStep t op

/-! ## What a step does -/

/-- **Everything a step can do**, with what allowed it. -/
inductive Move (s : ServiceState N) : Act N → ServiceState N → Prop where
  | enter {t : Fin N} (ht : s.threads t = ⟨.outside, .idle⟩) :
      Move s (.run t .enter) ({ s with runCount := s.runCount + 1 }.setThread t ⟨.entered, .idle⟩)
  | testWorking {t : Fin N} (ht : s.threads t = ⟨.entered, .idle⟩) :
      Move s (.run t .testWorking) (s.setThread t ⟨if s.isWorking then .evaluating else .leaving, .idle⟩)
  | callRun {t : Fin N} {io : IoService} (ht : s.threads t = ⟨.evaluating, .idle⟩) (hio : s.ioservice = some io) :
      Move s (.run t .callRun) (s.setThread t ⟨.running io.gen, .idle⟩)
  | returnRun {t : Fin N} {g : Nat} (ht : s.threads t = ⟨.running g, .idle⟩) :
      Move s (.run t .returnRun) (s.setThread t ⟨.entered, .idle⟩)
  | leave {t : Fin N} (ht : s.threads t = ⟨.leaving, .idle⟩) :
      Move s (.run t .leave) ({ s with runCount := s.runCount - 1 }.setThread t ⟨.outside, .idle⟩)
  | kickHandler {t : Fin N} {io : IoService} (ht : s.threads t = ⟨.running io.gen, .idle⟩)
      (hio : s.ioservice = some io) (hkicks : 0 < io.kicks) : Move s (.run t .kickHandler) (s.execute io)
  | canKick {t : Fin N} (ht : (s.threads t).call = .idle) (hlt : s.kickCount < s.runCount) :
      Move s (.call t .canKick) (s.setCall t .kickAllowed)
  | incKickCount {t : Fin N} (ht : (s.threads t).call = .kickAllowed) :
      Move s (.call t .incKickCount) ({ s with kickCount := s.kickCount + 1 }.setCall t .kickCounted)
  | post {t : Fin N} {io : IoService} (ht : (s.threads t).call = .kickCounted) (hio : s.ioservice = some io) :
      Move s (.call t .post) ({ s with ioservice := some { io with kicks := io.kicks + 1 } }.setCall t .idle)
  | stop {t : Fin N} (ht : (s.threads t).call = .idle) : Move s (.call t .stop) (s.setCall t .stopAllowed)
  | clearIsWorking {t : Fin N} (ht : (s.threads t).call = .stopAllowed) :
      Move s (.call t .clearIsWorking) ({ s with isWorking := false }.setCall t .stopCleared)
  | stopThrew {t : Fin N} (ht : (s.threads t).call = .stopCleared) :
      Move s (.call t .stopThrew) (s.setCall t .idle)
  | stopService {t : Fin N} {io : IoService} (ht : (s.threads t).call = .stopCleared)
      (hio : s.ioservice = some io) :
      Move s (.call t .stopService) ({ s with ioservice := some { io with stopped := true } }.setCall t .stopWaiting)
  | finished {t : Fin N} (ht : (s.threads t).call = .stopWaiting) (hrun : s.runCount = 0) :
      Move s (.call t .waitEnds) (s.setCall t .finalizing)
  | elapsed {t : Fin N} (ht : (s.threads t).call = .stopWaiting) (hrun : s.runCount ≠ 0) :
      Move s (.call t .waitEnds) (s.setCall t .idle)
  | finalize {t : Fin N} (ht : (s.threads t).call = .finalizing) :
      Move s (.call t .finalize) ({ s with ioservice := none }.setCall t .idle)
  | reset {t : Fin N} (ht : (s.threads t).call = .idle) : Move s (.call t .reset) (s.setCall t .resetAllowed)
  | setIsWorking {t : Fin N} (ht : (s.threads t).call = .resetAllowed) :
      Move s (.call t .setIsWorking) ({ s with isWorking := true }.setCall t .resetSet)
  | createIoService {t : Fin N} (ht : (s.threads t).call = .resetSet) :
      Move s (.call t .createIoService)
        ({ s with ioservice := some ⟨s.gens, false, 0⟩, gens := s.gens + 1 }.setCall t .idle)
  /-- A call whose test failed returns at once. -/
  | refused {t : Fin N} {op : CallOp} (hop : op = .canKick ∨ op = .stop ∨ op = .reset) : Move s (.call t op) s

variable {s} {s' : ServiceState N}

theorem runStep_move {t : Fin N} {op : RunOp} (h : s.runStep t op = some s') : Move s (.run t op) s' := by
  unfold runStep at h
  split at h
  · next ht => cases h; exact .enter ht
  · next ht => cases h; exact .testWorking ht
  · next ht =>
      obtain ⟨io, hio, rfl⟩ := Option.map_eq_some_iff.mp h
      exact .callRun ht hio
  · next ht => cases h; exact .returnRun ht
  · next ht => cases h; exact .leave ht
  · next ht =>
      split at h
      · next io hio =>
          split at h
          · next hok =>
              obtain ⟨rfl, -, hkicks⟩ := hok
              cases h
              exact .kickHandler ht hio hkicks
          · cases h
      · cases h
  · cases h

theorem callStep_move {t : Fin N} {op : CallOp} (h : s.callStep t op = some s') : Move s (.call t op) s' := by
  unfold callStep at h
  split at h
  · split at h
    · next ht =>
        split at h <;> cases h
        · exact .canKick ht ‹_›
        · exact .refused (.inl rfl)
    · next ht => cases h; exact .incKickCount ht
    · next ht =>
        obtain ⟨io, hio, rfl⟩ := Option.map_eq_some_iff.mp h
        exact .post ht hio
    · next ht =>
        split at h <;> cases h
        · exact .stop ht
        · exact .refused (.inr (.inl rfl))
    · next ht => cases h; exact .clearIsWorking ht
    · next ht => cases h; exact .stopThrew ht
    · next ht =>
        obtain ⟨io, hio, rfl⟩ := Option.map_eq_some_iff.mp h
        exact .stopService ht hio
    · next ht =>
        split at h <;> cases h
        · exact .finished ht ‹_›
        · exact .elapsed ht ‹_›
    · next ht => cases h; exact .finalize ht
    · next ht =>
        split at h <;> cases h
        · exact .refused (.inr (.inr rfl))
        · exact .reset ht
    · next ht => cases h; exact .setIsWorking ht
    · next ht => cases h; exact .createIoService ht
    · cases h
  · cases h

/-- **A step is a move.** -/
theorem step_move {a : Act N} (h : s.step a = some s') : Move s a s' := by
  cases a with
  | run t op  => exact runStep_move h
  | call t op => exact callStep_move h

/-! ## What a step leaves alone -/

theorem setThread_self (s : ServiceState N) (t : Fin N) (x : ServiceThread) : (s.setThread t x).threads t = x :=
  Function.update_self ..

theorem setCall_self (s : ServiceState N) (t : Fin N) (c : CallPos) :
    (s.setCall t c).threads t = (s.threads t).withCall c := Function.update_self ..

/-- The threads whose step it is not. -/
theorem Move.others {a : Act N} (hm : Move s a s') {u : Fin N} (hu : u ≠ a.thread) : s'.threads u = s.threads u := by
  cases hm with
  | kickHandler | refused => rfl
  | enter | testWorking | callRun | returnRun | leave | canKick | incKickCount | post | stop | clearIsWorking
  | stopThrew | stopService | finished | elapsed | finalize | reset | setIsWorking | createIoService =>
      exact Function.update_of_ne hu _ _

/-- A call moves no thread in `run`. -/
theorem Move.run_of_call {t : Fin N} {op : CallOp} (hm : Move s (.call t op) s') :
    (s'.threads t).run = (s.threads t).run := by
  cases hm with
  | refused => rfl
  | canKick | incKickCount | post | stop | clearIsWorking | stopThrew | stopService | finished | elapsed | finalize
  | reset | setIsWorking | createIoService =>
      rw [setCall_self]
      rfl

theorem Move.run_of_calls {t : Fin N} {op : CallOp} (hm : Move s (.call t op) s') (u : Fin N) :
    (s'.threads u).run = (s.threads u).run := by
  by_cases hu : u = t
  · rw [hu, hm.run_of_call]
  · rw [hm.others hu]

end ServiceState

end Unicomm
