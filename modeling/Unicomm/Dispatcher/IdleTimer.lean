import Unicomm.Comm.Config
import Unicomm.Dispatcher.KickCount

/-!
# `Dispatcher.IdleTimer` — the timer that kicks an idle dispatcher

Models `create_timer`, `redeem_timer`, `destroy_timer` and `timer_handler` over `Dispatcher.Service`: `initialize`
makes the timer behind the `io_service` and lets it wait, `finalize` destroys it in front of it, and the handler kicks
the dispatcher and waits again. A thread of `run` executes the handler, in the middle of everything the others do.

The timer is a pointer into the service. `Timed` is what holds as long as `initialize` and `finalize` take turns
(`Settled`): **there is one tick at any time**, pending, queued or being handled, and the service outlives the timer.
Whenever a service is created with a timer there, as when the wait of a `stop` elapsed and the dispatcher is reset all
the same, the timer is left with a destroyed service (`Aged`), also when no thread uses that any more
(`timer_dangles`). What a tick is for: whoever handles it kicks, unless a kick is on its way (`tick_kicks`).
-/

namespace Unicomm

/-- `is_infinite_timeout`. -/
def isInfiniteTimeout (tout : Nat) : Bool := tout == infiniteTimeout

/-! ## State -/

/-- `_timer`: the service it was made with, and whether its wait is pending. -/
structure IdleTimer where
  gen     : Nat
  waiting : Bool
  deriving DecidableEq, Repr

/-- What a thread does about the timer. -/
inductive TimerPos where
  | apart
  /-- `timer_handler` was called without an error; `kick_dispatcher` comes next. -/
  | handling
  /-- In `kick_dispatcher` or behind it; `redeem_timer` comes next. -/
  | kicking
  /-- `initialize` created the service; `create_timer` comes next. -/
  | creating
  /-- `create_timer` made the timer; `redeem_timer` comes next. -/
  | created
  /-- `finalize` destroyed the timer; the service comes next. -/
  | destroyed
  deriving DecidableEq, Repr

/-- The thread is inside `timer_handler`. -/
def TimerPos.inHandler : TimerPos → Bool
  | .handling | .kicking => true
  | _                    => false

/-- The thread is inside `initialize`, behind the service. -/
def TimerPos.initializing : TimerPos → Bool
  | .creating | .created => true
  | _                    => false

/-- `redeem_timer` comes next, once the thread is in no call. -/
def TimerPos.redeems : TimerPos → Bool
  | .kicking | .created => true
  | _                   => false

/-- The steps of the service a thread at this position may take. -/
def TimerPos.admits {N : Nat} : TimerPos → ServiceState.Act N → Bool
  | .apart, .call _ .finalize       => false
  | .apart, _                       => true
  | .handling, .call _ .canKick     => true
  | .kicking, .call _ .incKickCount => true
  | .kicking, .call _ .post         => true
  | .destroyed, .call _ .finalize   => true
  | _, _                            => false

/-- Where it stands behind such a step. -/
def TimerPos.after {N : Nat} : TimerPos → ServiceState.Act N → TimerPos
  | .apart, .call _ .createIoService => .creating
  | .handling, _                     => .kicking
  | .destroyed, _                    => .apart
  | p, _                             => p

/-- A dispatcher with its timer. -/
structure TimedService (N : Nat) where
  service : ServiceState N
  timer   : Option IdleTimer
  /-- The waits that are over and whose handlers are queued in the service. -/
  elapsed : Nat
  pos     : Fin N → TimerPos

namespace TimedService

variable {N : Nat}

/-! ## Steps -/

/-- Who does what. -/
inductive Act (N : Nat) where
  | service (a : ServiceState.Act N)
  /-- The wait is over. -/
  | elapse
  | timerHandler (t : Fin N)
  | redeemTimer (t : Fin N)
  | createTimer (t : Fin N)
  | destroyTimer (t : Fin N)
  deriving DecidableEq

variable (tout : Nat)

/-- A constructed dispatcher: `initialize` ran. -/
def init : TimedService N where
  service := .init
  timer   := some ⟨0, !isInfiniteTimeout tout⟩
  elapsed := 0
  pos _   := .apart

variable (s : TimedService N)

def setPos (t : Fin N) (p : TimerPos) : TimedService N := { s with pos := Function.update s.pos t p }

/-- A step of the service; the handlers queued in one that is destroyed are dropped. -/
def setService (a : ServiceState.Act N) (s' : ServiceState N) : TimedService N :=
  { s with service := s', elapsed := if a.destroys then 0 else s.elapsed }.setPos a.thread
    ((s.pos a.thread).after a)

/-- The service the timer was made with is the one there is. -/
def attached : Bool := s.timer.all (fun tm => s.service.ioservice.map IoService.gen == some tm.gen)

/-- The threads inside `timer_handler`. -/
def handlers : Nat := Family.count TimerPos.inHandler s.pos

/-- One step; `none` when it is not possible. -/
def step : Act N → Option (TimedService N)
  | .service a =>
      if (s.pos a.thread).admits a then (s.service.step a).map (s.setService a) else none
  | .elapse =>
      match s.timer, s.service.ioservice with
      | some tm, some io =>
          if tm.waiting = true ∧ io.gen = tm.gen ∧ io.stopped = false then
            some { s with timer := some { tm with waiting := false }, elapsed := s.elapsed + 1 }
          else none
      | _, _ => none
  | .timerHandler t =>
      match s.pos t, s.service.threads t, s.service.ioservice with
      | .apart, ⟨.running g, .idle⟩, some io =>
          if io.gen = g ∧ io.stopped = false ∧ 0 < s.elapsed then
            some ({ s with elapsed := s.elapsed - 1 }.setPos t .handling)
          else none
      | _, _, _ => none
  | .redeemTimer t =>
      if (s.pos t).redeems = true ∧ (s.service.threads t).call = .idle then
        if isInfiniteTimeout tout then some (s.setPos t .apart)
        -- a null `_timer` is dereferenced, or one whose service is gone: no behaviour is defined
        else if s.attached then
          s.timer.map (fun tm => { s with timer := some { tm with waiting := true } }.setPos t .apart)
        else none
      else none
  | .createTimer t =>
      if s.pos t = .creating then
        match s.service.ioservice with
        -- the timer before it, if there is one, is destroyed in its service
        | some io => if s.attached then some ({ s with timer := some ⟨io.gen, false⟩ }.setPos t .created) else none
        | none    => none
      else none
  | .destroyTimer t =>
      if s.pos t = .apart ∧ (s.service.threads t).call = .finalizing ∧ s.attached then
        some ({ s with timer := none }.setPos t .destroyed)
      else none

/-- **Everything a step can do**, with what allowed it. -/
inductive Move (s : TimedService N) : Act N → TimedService N → Prop where
  | service {a : ServiceState.Act N} {s' : ServiceState N} (hadmits : (s.pos a.thread).admits a = true)
      (hm : ServiceState.Move s.service a s') : Move s (.service a) (s.setService a s')
  | elapse {tm : IdleTimer} (htimer : s.timer = some tm) (hwaiting : tm.waiting = true) :
      Move s .elapse { s with timer := some { tm with waiting := false }, elapsed := s.elapsed + 1 }
  | timerHandler {t : Fin N} {io : IoService} (hpos : s.pos t = .apart)
      (ht : s.service.threads t = ⟨.running io.gen, .idle⟩) (hio : s.service.ioservice = some io)
      (helapsed : 0 < s.elapsed) :
      Move s (.timerHandler t) ({ s with elapsed := s.elapsed - 1 }.setPos t .handling)
  | redeemTimer {t : Fin N} {tm : IdleTimer} (hpos : (s.pos t).redeems = true)
      (hfinite : isInfiniteTimeout tout = false) (htimer : s.timer = some tm) :
      Move s (.redeemTimer t) ({ s with timer := some { tm with waiting := true } }.setPos t .apart)
  | unredeemed {t : Fin N} (hpos : (s.pos t).redeems = true) (hinfinite : isInfiniteTimeout tout = true) :
      Move s (.redeemTimer t) (s.setPos t .apart)
  | createTimer {t : Fin N} {io : IoService} (hpos : s.pos t = .creating) (hio : s.service.ioservice = some io) :
      Move s (.createTimer t) ({ s with timer := some ⟨io.gen, false⟩ }.setPos t .created)
  | destroyTimer {t : Fin N} (hpos : s.pos t = .apart) (ht : (s.service.threads t).call = .finalizing) :
      Move s (.destroyTimer t) ({ s with timer := none }.setPos t .destroyed)

variable {tout} {s} {s' : TimedService N}

/-- **A step is a move.** -/
theorem step_move {a : Act N} (h : s.step tout a = some s') : Move tout s a s' := by
  cases a with
  | service a =>
      rw [step] at h
      split at h
      · next hadmits =>
          obtain ⟨s'', hs'', rfl⟩ := Option.map_eq_some_iff.mp h
          exact .service hadmits (ServiceState.step_move hs'')
      · cases h
  | elapse =>
      rw [step] at h
      split at h
      · next tm io htimer hio =>
          split at h <;> cases h
          next hok => exact .elapse htimer hok.1
      · cases h
  | timerHandler t =>
      rw [step] at h
      split at h
      · next g io hpos ht hio =>
          split at h <;> cases h
          next hok =>
            obtain ⟨rfl, -, helapsed⟩ := hok
            exact .timerHandler hpos ht hio helapsed
      · cases h
  | redeemTimer t =>
      rw [step] at h
      split at h
      · next hpos =>
          split at h
          · next hinfinite =>
              cases h
              exact .unredeemed hpos.1 hinfinite
          · next hfinite =>
              split at h
              · obtain ⟨tm, htimer, rfl⟩ := Option.map_eq_some_iff.mp h
                exact .redeemTimer hpos.1 (Bool.eq_false_iff.mpr hfinite) htimer
              · cases h
      · cases h
  | createTimer t =>
      rw [step] at h
      split at h
      · next hpos =>
          split at h
          · next io hio =>
              split at h <;> cases h
              exact .createTimer hpos hio
          · cases h
      · cases h
  | destroyTimer t =>
      rw [step] at h
      split at h <;> cases h
      next hok => exact .destroyTimer hok.1 hok.2.1

end TimedService

/-! ## What a step of the service leaves alone -/

namespace ServiceState

variable {N : Nat} {s s' : ServiceState N} {a : Act N}

/-- The service, unless it is destroyed. -/
theorem Move.sameService (hm : Move s a s') (hkeeps : a.destroys = false) :
    s'.ioservice.map IoService.gen = s.ioservice.map IoService.gen := by
  cases hm with
  | kickHandler _ hio _ | post _ hio | stopService _ hio => rw [hio]; rfl
  | finalize | createIoService => cases hkeeps
  | enter | testWorking | callRun | returnRun | leave | canKick | incKickCount | stop | clearIsWorking | stopThrew
  | finished | elapsed | reset | setIsWorking | refused => rfl

/-- Only a wait that is over lets a thread finalize. -/
theorem Move.finalizing (hm : Move s a s') {u : Fin N} (hu : (s'.threads u).call = .finalizing) :
    (s.threads u).call = .finalizing ∨ ∃ t, a = .call t .waitEnds ∧ s.runCount = 0 := by
  by_cases hne : u = a.thread
  · subst hne
    cases hm with
    | kickHandler | refused => exact .inl hu
    | finished ht hrun => exact .inr ⟨_, rfl, hrun⟩
    | enter | testWorking | callRun | returnRun | leave =>
        rw [Act.thread, setThread_self] at hu
        cases hu
    | canKick | incKickCount | post | stop | clearIsWorking | stopThrew | stopService | elapsed | finalize | reset
    | setIsWorking | createIoService =>
        rw [Act.thread, setCall_self] at hu
        cases hu
  · rw [hm.others hne] at hu
    exact .inl hu

/-- What `finalize` finds and leaves. -/
theorem Move.of_finalize {t : Fin N} (hm : Move s (.call t .finalize) s') :
    (s.threads t).call = .finalizing ∧ s'.ioservice = none := by
  cases hm with
  | finalize ht => exact ⟨ht, rfl⟩
  | refused hop => rcases hop with hop | hop | hop <;> cases hop

/-- `can_kick` says no when there are as many kicks as threads. -/
theorem allowed_or_full {t : Fin N} (h : s.step (.call t .canKick) = some s') :
    (s'.threads t).call = .kickAllowed ∨ (s' = s ∧ s.runCount ≤ s.kickCount) := by
  rw [step] at h
  unfold callStep at h
  split at h
  · cases hcall : (s.threads t).call with
    | idle =>
        rw [hcall] at h
        change some (if s.kickCount < s.runCount then s.setCall t .kickAllowed else s) = some s' at h
        split at h <;> cases h
        · left
          rw [setCall_self]
          rfl
        · next hge => exact .inr ⟨rfl, Int.not_lt.mp hge⟩
    | kickAllowed | kickCounted | stopAllowed | stopCleared | stopWaiting | finalizing | resetAllowed | resetSet =>
        rw [hcall] at h
        cases h
  · cases h

/-- What `initialize` leaves. -/
theorem Move.of_createIoService {t : Fin N} (hm : Move s (.call t .createIoService) s') :
    s'.ioservice.isSome = true := by
  cases hm with
  | createIoService ht => rfl
  | refused hop => rcases hop with hop | hop | hop <;> cases hop

end ServiceState

/-! ## The invariant -/

theorem TimerPos.inHandler_after {N : Nat} {p : TimerPos} {a : ServiceState.Act N} (h : p.admits a = true) :
    (p.after a).inHandler = p.inHandler := by
  unfold TimerPos.admits at h
  split at h <;> first | rfl | cases h
  unfold TimerPos.after
  split <;> first | rfl | contradiction

namespace TimedService

variable {N : Nat} {tout : Nat}

section Conditions

variable (s : TimedService N)

/-- **`initialize` and `finalize` take turns**: a service is created only when there is none and no `stop` is about to
    finalize, and no `stop` goes on to finalize while a thread is in `initialize`, behind the service. -/
def TakesTurns : ServiceState.Act N → Prop
  | .call _ .createIoService => s.service.ioservice.isNone = true ∧ ∀ u, (s.service.threads u).call ≠ .finalizing
  | .call _ .waitEnds        => s.service.runCount = 0 → ∀ u, (s.pos u).initializing = false
  | _                        => True

instance : ∀ a : ServiceState.Act N, Decidable (s.TakesTurns a)
  | .call _ .createIoService => inferInstanceAs (Decidable (_ ∧ ∀ _, _))
  | .call _ .waitEnds        => inferInstanceAs (Decidable (_ → ∀ _, _))
  | .call _ .canKick | .call _ .incKickCount | .call _ .post | .call _ .stop | .call _ .clearIsWorking
  | .call _ .stopThrew | .call _ .stopService | .call _ .finalize | .call _ .reset | .call _ .setIsWorking
  | .run _ _                 => inferInstanceAs (Decidable True)

/-- Restarts are settled, for the service and for the timer. -/
def Settled : Act N → Prop
  | .service a => s.service.RestartsSettled a ∧ s.TakesTurns a
  | _          => True

instance : ∀ a : Act N, Decidable (s.Settled a)
  | .service _ => inferInstanceAs (Decidable (_ ∧ _))
  | .elapse | .timerHandler _ | .redeemTimer _ | .createTimer _ | .destroyTimer _ => inferInstanceAs (Decidable True)

/-- Who handles the timer is inside `io_service::run`. -/
def Handling : Prop := ∀ t, (s.pos t).inHandler = true → (s.service.threads t).usesService = true

/-- There is a service, and nobody is in `initialize` or `finalize` between it and the timer. -/
def Ready : Prop := s.service.ioservice.isSome = true ∧ ∀ t, (s.pos t).initializing = false ∧ s.pos t ≠ .destroyed

end Conditions

/-- What holds while a thread is in `initialize`, behind the service. -/
structure Initializing (s : TimedService N) (t : Fin N) : Prop where
  service  : s.service.ioservice.isSome = true
  /-- `some` once it created the timer. -/
  timer    : if s.pos t = .created then ∃ tm, s.timer = some tm ∧ tm.waiting = false else s.timer = none
  elapsed  : s.elapsed = 0
  handlers : s.handlers = 0
  alone    : ∀ u, (s.pos u).initializing = true → u = t
  nobody   : ∀ u, (s.service.threads u).call ≠ .finalizing

/-- What holds as long as restarts are settled. -/
structure Timed (tout : Nat) (s : TimedService N) : Prop where
  safe         : s.service.Safe
  counted      : s.service.RunCounted
  attached     : s.attached = true
  handler      : s.Handling
  destroyed    : ∀ t, s.pos t = .destroyed → (s.service.threads t).call = .finalizing ∧ s.timer = none
  initializing : ∀ t, (s.pos t).initializing = true → s.Initializing t
  present      : s.Ready → s.timer.isSome = true
  /-- One tick at any time, once the timer waits. -/
  tick         : ∀ tm, s.timer = some tm → (∀ t, (s.pos t).initializing = false) →
    tm.waiting.toNat + s.elapsed + s.handlers = (!isInfiniteTimeout tout).toNat
  nobody       : s.timer = none → s.handlers = 0

theorem handlers_init : (init tout : TimedService N).handlers = 0 := Family.count_const rfl

theorem Timed.init : Timed tout (init tout : TimedService N) where
  safe             := .init
  counted          := .init
  attached         := rfl
  handler _ h      := by cases h
  destroyed _ h    := by cases h
  initializing _ h := by cases h
  present _        := rfl
  tick tm h _      := by
    cases h
    rw [handlers_init]
    rfl
  nobody h         := by cases h

variable {s s' : TimedService N}

/-- The timer's service is there. -/
theorem Timed.service_of_timer (h : Timed tout s) {tm : IdleTimer} (htimer : s.timer = some tm) :
    s.service.ioservice.map IoService.gen = some tm.gen := by
  have hattached := h.attached
  rw [TimedService.attached, htimer] at hattached
  exact beq_iff_eq.mp hattached

/-- Without a service there is no timer. -/
theorem Timed.no_timer (h : Timed tout s) (hio : s.service.ioservice = none) : s.timer = none := by
  cases htimer : s.timer with
  | none => rfl
  | some tm =>
      have hservice := h.service_of_timer htimer
      rw [hio] at hservice
      cases hservice

/-- Whoever finalizes is alone with the service. -/
theorem Timed.unused (h : Timed tout s) {t : Fin N} (ht : (s.service.threads t).call = .finalizing) :
    s.service.Unused := h.safe.alone t (by rw [ServiceThread.replaces, ht])

/-- Then nobody handles the timer. -/
theorem Timed.no_handlers (h : Timed tout s) (hunused : s.service.Unused) : s.handlers = 0 := by
  apply Family.count_eq_zero
  intro t
  refine Bool.eq_false_iff.mpr (fun ht => ?_)
  have huses := h.handler t ht
  rw [hunused t] at huses
  cases huses

/-- While a tick is pending, queued or being handled, nobody is in `initialize`. -/
theorem Timed.not_initializing (h : Timed tout s)
    (hbusy : 0 < s.elapsed ∨ 0 < s.handlers ∨ ∃ tm, s.timer = some tm ∧ tm.waiting = true) (t : Fin N) :
    (s.pos t).initializing = false := by
  refine Bool.eq_false_iff.mpr (fun ht => ?_)
  obtain ⟨-, htimer, helapsed, hhandlers, -, -⟩ := h.initializing t ht
  rcases hbusy with hbusy | hbusy | ⟨tm, htm, hwaiting⟩
  · omega
  · omega
  · split at htimer
    · obtain ⟨tm', htm', hidle⟩ := htimer
      rw [htm] at htm'
      cases htm'
      rw [hwaiting] at hidle
      cases hidle
    · rw [htm] at htimer
      cases htimer

/-! ## Steps of the service -/

section Service

variable {a : ServiceState.Act N} {v : ServiceState N}

theorem pos_setService {u : Fin N} (hu : u ≠ a.thread) : (s.setService a v).pos u = s.pos u :=
  Function.update_of_ne hu _ _

theorem pos_setService_self : (s.setService a v).pos a.thread = (s.pos a.thread).after a := Function.update_self ..

/-- A step of the service neither starts nor ends a handler. -/
theorem handlers_setService (hadmits : (s.pos a.thread).admits a = true) :
    (s.setService a v).handlers = s.handlers := by
  have hcount := Family.count_update TimerPos.inHandler s.pos a.thread ((s.pos a.thread).after a)
  rw [TimerPos.inHandler_after hadmits] at hcount
  exact Nat.add_right_cancel hcount

/-- Whoever is in the handler only kicks there. -/
theorem call_of_inHandler {p : TimerPos} (hadmits : p.admits a = true) (hp : p.inHandler = true) :
    ∃ t op, a = .call t op ∧ a.destroys = false := by
  cases p with
  | apart | creating | created | destroyed => cases hp
  | handling | kicking =>
      cases a with
      | run t op  => cases hadmits
      | call t op => cases op <;> first | exact ⟨_, _, rfl, rfl⟩ | cases hadmits

/-- Only who creates the service comes into `initialize`. -/
theorem createIoService_of_after {p : TimerPos} (hadmits : p.admits a = true) (hp : (p.after a).initializing = true) :
    p.after a = .creating ∧ ∃ t, a = .call t .createIoService := by
  cases p with
  | apart =>
      cases a with
      | run t op => cases hp
      | call t op => cases op <;> first | exact ⟨rfl, _, rfl⟩ | cases hp
  | creating | created =>
      cases a with
      | run t op  => cases hadmits
      | call t op => cases op <;> cases hadmits
  | handling | kicking | destroyed => cases hp

/-- Whoever is in `initialize` takes no step of the service. -/
theorem not_initializing_of_admits {p : TimerPos} (hadmits : p.admits a = true) : p.initializing = false := by
  cases p with
  | apart | handling | kicking | destroyed => rfl
  | creating | created =>
      cases a with
      | run t op  => cases hadmits
      | call t op => cases op <;> cases hadmits

theorem not_destroyed_after {p : TimerPos} (hadmits : p.admits a = true) : p.after a ≠ .destroyed := by
  intro hp
  cases p with
  | apart =>
      cases a with
      | run t op => cases hp
      | call t op => cases op <;> cases hp
  | creating | created | handling | kicking | destroyed => cases hp

theorem finalize_of_destroyed (hadmits : TimerPos.destroyed.admits a = true) : ∃ t, a = .call t .finalize := by
  cases a with
  | run t op  => cases hadmits
  | call t op => cases op <;> first | exact ⟨_, rfl⟩ | cases hadmits

theorem pos_createIoService {t : Fin N}
    (hadmits : (s.pos t).admits (.call t .createIoService : ServiceState.Act N) = true) :
    (s.setService (.call t .createIoService) v).pos t = .creating := by
  have hself : (s.setService (.call t .createIoService) v).pos t = (s.pos t).after (.call t .createIoService) :=
    Function.update_self ..
  rw [hself]
  cases hp : s.pos t with
  | apart => rfl
  | handling | kicking | creating | created | destroyed =>
      rw [hp] at hadmits
      cases hadmits

/-- Only who destroyed the timer destroys the service. -/
theorem destroyed_of_finalize {t : Fin N} (hadmits : (s.pos t).admits (.call t .finalize : ServiceState.Act N) = true) :
    s.pos t = .destroyed := by
  cases hp : s.pos t with
  | destroyed => rfl
  | apart | handling | kicking | creating | created =>
      rw [hp] at hadmits
      cases hadmits

/-- A step that destroys the service finds no timer. -/
theorem Timed.no_timer_of_destroys (h : Timed tout s) (hadmits : (s.pos a.thread).admits a = true)
    (hturns : s.TakesTurns a) (hdestroys : a.destroys = true) : s.timer = none := by
  cases a with
  | run t op => cases hdestroys
  | call t op =>
      cases op with
      | finalize        => exact (h.destroyed t (destroyed_of_finalize hadmits)).2
      | createIoService => exact h.no_timer (Option.isNone_iff_eq_none.mp hturns.1)
      | canKick | incKickCount | post | stop | clearIsWorking | stopThrew | stopService | waitEnds | reset
      | setIsWorking => cases hdestroys

/-- While a thread is in `initialize` no step destroys the service. -/
theorem Timed.keeps_of_initializing (h : Timed tout s) (hm : ServiceState.Move s.service a v)
    (hturns : s.TakesTurns a) {u : Fin N} (hu : (s.pos u).initializing = true) : a.destroys = false := by
  obtain ⟨hservice, -, -, -, -, hnobody⟩ := h.initializing u hu
  cases a with
  | run t op => rfl
  | call t op =>
      cases op with
      | finalize        => exact absurd hm.of_finalize.1 (hnobody t)
      | createIoService =>
          rw [Option.isNone_iff_eq_none.mp hturns.1] at hservice
          cases hservice
      | canKick | incKickCount | post | stop | clearIsWorking | stopThrew | stopService | waitEnds | reset
      | setIsWorking => rfl

/-- A step that keeps the service leaves the rest as it is. -/
theorem Timed.elapsed_setService (hkeeps : a.destroys = false) : (s.setService a v).elapsed = s.elapsed := by
  show (if a.destroys then 0 else s.elapsed) = s.elapsed
  rw [hkeeps]
  rfl

theorem Timed.attached_service (h : Timed tout s) (hadmits : (s.pos a.thread).admits a = true)
    (hm : ServiceState.Move s.service a v) (hturns : s.TakesTurns a) : (s.setService a v).attached = true := by
  show s.timer.all (fun tm => v.ioservice.map IoService.gen == some tm.gen) = true
  cases hdestroys : a.destroys with
  | true =>
      rw [h.no_timer_of_destroys hadmits hturns hdestroys]
      rfl
  | false =>
      rw [hm.sameService hdestroys]
      exact h.attached

theorem Handling.service (h : s.Handling) (hadmits : (s.pos a.thread).admits a = true)
    (hm : ServiceState.Move s.service a v) : (s.setService a v).Handling := by
  intro u hu
  show (v.threads u).usesService = true
  by_cases hne : u = a.thread
  · subst hne
    rw [pos_setService_self, TimerPos.inHandler_after hadmits] at hu
    have huses := h a.thread hu
    -- in the handler it makes a call, which leaves it inside `io_service::run`
    obtain ⟨t, op, rfl, -⟩ := call_of_inHandler hadmits hu
    have hrun : (v.threads t).run = (s.service.threads t).run := hm.run_of_call
    show (v.threads t).usesService = true
    rw [ServiceThread.usesService, hrun]
    exact huses
  · rw [pos_setService hne] at hu
    rw [hm.others hne]
    exact h u hu

theorem Timed.initializing_service (h : Timed tout s) (hadmits : (s.pos a.thread).admits a = true)
    (hm : ServiceState.Move s.service a v) (hturns : s.TakesTurns a) (u : Fin N)
    (hu : ((s.setService a v).pos u).initializing = true) : (s.setService a v).Initializing u := by
  by_cases hne : u = a.thread
  · subst hne
    rw [pos_setService_self] at hu
    obtain ⟨hafter, t, rfl⟩ := createIoService_of_after hadmits hu
    -- the new service starts without a timer: by the guard there was none, and a timer needs a service
    have hnone : s.service.ioservice = none := Option.isNone_iff_eq_none.mp hturns.1
    have htimer := h.no_timer hnone
    refine ⟨hm.of_createIoService, ?_, rfl, ?_, fun w hw => ?_, fun w hw => ?_⟩
    · rw [pos_setService_self, hafter]
      exact htimer
    · rw [handlers_setService hadmits]
      exact h.nobody htimer
    -- two threads inside `initialize` would both have found no service
    · by_contra hwt
      rw [pos_setService hwt] at hw
      have hsome := (h.initializing w hw).service
      rw [hnone] at hsome
      cases hsome
    · rcases hm.finalizing hw with hw | ⟨_, ha, -⟩
      · exact hturns.2 w hw
      · cases ha
  · rw [pos_setService hne] at hu
    -- what another thread does meanwhile leaves the service, the timer and the handlers alone
    have hkeeps := h.keeps_of_initializing hm hturns hu
    obtain ⟨hservice, htimer, helapsed, hhandlers, halone, hnobody⟩ := h.initializing u hu
    refine ⟨?_, ?_, ?_, ?_, fun w hw => ?_, fun w hw => ?_⟩
    · rw [← Option.isSome_map (f := IoService.gen)] at hservice ⊢
      rw [show (s.setService a v).service = v from rfl, hm.sameService hkeeps]
      exact hservice
    · rw [pos_setService hne]
      exact htimer
    · rw [elapsed_setService hkeeps]
      exact helapsed
    · rw [handlers_setService hadmits]
      exact hhandlers
    · by_cases hwt : w = a.thread
      · subst hwt
        rw [pos_setService_self] at hw
        obtain ⟨-, t, rfl⟩ := createIoService_of_after hadmits hw
        cases hkeeps
      · rw [pos_setService hwt] at hw
        exact halone w hw
    · rcases hm.finalizing hw with hw | ⟨t, rfl, hrun⟩
      · exact hnobody w hw
      · rw [hturns hrun u] at hu
        cases hu

theorem Timed.present_service (h : Timed tout s) (hadmits : (s.pos a.thread).admits a = true)
    (hm : ServiceState.Move s.service a v) (hready : (s.setService a v).Ready) : s.timer.isSome = true := by
  obtain ⟨hservice, hpos⟩ := hready
  -- a service that is ready behind the step was not made or destroyed by it
  have hkeeps : a.destroys = false := by
    cases a with
    | run t op => rfl
    | call t op =>
        cases op with
        | finalize =>
            rw [show (s.setService _ v).service = v from rfl, hm.of_finalize.2] at hservice
            cases hservice
        | createIoService =>
            have hno := (hpos t).1
            rw [pos_createIoService (t := t) (v := v) hadmits] at hno
            cases hno
        | canKick | incKickCount | post | stop | clearIsWorking | stopThrew | stopService | waitEnds | reset
        | setIsWorking => rfl
  refine h.present ⟨?_, fun u => ?_⟩
  · rw [← Option.isSome_map (f := IoService.gen)] at hservice ⊢
    rw [← hm.sameService hkeeps]
    exact hservice
  · by_cases hne : u = a.thread
    · subst hne
      refine ⟨?_, fun hp => ?_⟩
      · exact not_initializing_of_admits hadmits
      · rw [hp] at hadmits
        obtain ⟨t, rfl⟩ := finalize_of_destroyed hadmits
        cases hkeeps
    · have hu := hpos u
      rw [pos_setService hne] at hu
      exact hu

/-- **A step of the service keeps the tick.** -/
theorem Timed.service_move (h : Timed tout s) (hadmits : (s.pos a.thread).admits a = true)
    (hm : ServiceState.Move s.service a v) (hok : s.Settled (.service a)) : Timed tout (s.setService a v) where
  safe         := h.safe.step h.counted hok.1 hm
  counted      := h.counted.move hm
  attached     := h.attached_service hadmits hm hok.2
  handler      := h.handler.service hadmits hm
  destroyed    := by
    intro u hu
    by_cases hne : u = a.thread
    · subst hne
      rw [pos_setService_self] at hu
      exact absurd hu (not_destroyed_after hadmits)
    · rw [pos_setService hne] at hu
      rw [show (s.setService a v).service.threads u = s.service.threads u from hm.others hne]
      exact h.destroyed u hu
  initializing := h.initializing_service hadmits hm hok.2
  present      := h.present_service hadmits hm
  tick         := by
    intro tm htimer hnone
    -- with a timer there no service is destroyed, and the tick in it stays
    have hkeeps : a.destroys = false := by
      refine Bool.eq_false_iff.mpr (fun hdestroys => ?_)
      cases (h.no_timer_of_destroys hadmits hok.2 hdestroys).symm.trans htimer
    rw [elapsed_setService hkeeps, handlers_setService hadmits]
    refine h.tick tm htimer (fun u => ?_)
    by_cases hne : u = a.thread
    · subst hne
      exact not_initializing_of_admits hadmits
    · rw [← pos_setService hne]
      exact hnone u
  nobody       := by
    intro htimer
    rw [handlers_setService hadmits]
    exact h.nobody htimer

end Service

/-! ## Steps of the timer -/

section Timer

variable {t u : Fin N} {p : TimerPos}

theorem pos_setPos_self : (s.setPos t p).pos t = p := Function.update_self ..

theorem pos_setPos (hu : u ≠ t) : (s.setPos t p).pos u = s.pos u := Function.update_of_ne hu _ _

/-- One thread enters or leaves the handler. -/
theorem handlers_setPos {q : TimerPos} (hpos : s.pos t = q) :
    (s.setPos t p).handlers + q.inHandler.toNat = s.handlers + p.inHandler.toNat := by
  rw [← hpos]
  exact Family.count_update ..

theorem Handling.setPos (h : s.Handling) (hp : p.inHandler = true → (s.service.threads t).usesService = true) :
    (s.setPos t p).Handling := by
  intro u hu
  show (s.service.threads u).usesService = true
  by_cases hne : u = t
  · subst hne
    rw [pos_setPos_self] at hu
    exact hp hu
  · rw [pos_setPos hne] at hu
    exact h u hu

/-- A position only one thread has after a move it had before. -/
theorem pos_of_setPos {q : TimerPos} (hp : p ≠ q) (hu : (s.setPos t p).pos u = q) : u ≠ t ∧ s.pos u = q := by
  by_cases hne : u = t
  · subst hne
    rw [pos_setPos_self] at hu
    exact absurd hu hp
  · rw [pos_setPos hne] at hu
    exact ⟨hne, hu⟩

theorem initializing_of_setPos (hp : p.initializing = false) (hu : ((s.setPos t p).pos u).initializing = true) :
    u ≠ t ∧ (s.pos u).initializing = true := by
  by_cases hne : u = t
  · subst hne
    rw [pos_setPos_self, hp] at hu
    cases hu
  · rw [pos_setPos hne] at hu
    exact ⟨hne, hu⟩

theorem Ready.of_setPos (hpos : (s.pos t).initializing = false ∧ s.pos t ≠ .destroyed) (h : (s.setPos t p).Ready) :
    s.Ready := by
  refine ⟨h.1, fun u => ?_⟩
  by_cases hne : u = t
  · subst hne
    exact hpos
  · have hu := h.2 u
    rw [pos_setPos hne] at hu
    exact hu

theorem Timed.elapse (h : Timed tout s) {tm : IdleTimer} (htimer : s.timer = some tm)
    (hwaiting : tm.waiting = true) :
    Timed tout { s with timer := some { tm with waiting := false }, elapsed := s.elapsed + 1 } where
  safe               := h.safe
  counted            := h.counted
  attached           := by
    have hgen := h.service_of_timer htimer
    exact beq_iff_eq.mpr hgen
  handler            := h.handler
  destroyed u hu     := absurd (h.destroyed u hu).2 (by rw [htimer]; exact Option.some_ne_none tm)
  initializing u hu  := by
    cases (h.not_initializing (.inr (.inr ⟨tm, htimer, hwaiting⟩)) u).symm.trans hu
  present _          := rfl
  tick tm' htm' hno  := by
    cases htm'
    have htick := h.tick tm htimer hno
    rw [hwaiting] at htick
    show 0 + (s.elapsed + 1) + s.handlers = _
    rw [← htick]
    show 0 + (s.elapsed + 1) + s.handlers = 1 + s.elapsed + s.handlers
    omega
  nobody hnone       := by cases hnone

/-- A thread that handles the timer found it. -/
theorem Timed.timer_of_running (h : Timed tout s) (huses : (s.service.threads t).usesService = true)
    (hio : s.service.ioservice.isSome = true) (helapsed : 0 < s.elapsed) : s.timer.isSome = true := by
  refine h.present ⟨hio, fun u => ⟨h.not_initializing (.inl helapsed) u, fun hu => ?_⟩⟩
  have hunused := h.unused (h.destroyed u hu).1 t
  rw [huses] at hunused
  cases hunused

theorem Timed.timerHandler (h : Timed tout s) {io : IoService} (hpos : s.pos t = .apart)
    (ht : s.service.threads t = ⟨.running io.gen, .idle⟩) (hio : s.service.ioservice = some io)
    (helapsed : 0 < s.elapsed) : Timed tout ({ s with elapsed := s.elapsed - 1 }.setPos t .handling) where
  safe              := h.safe
  counted           := h.counted
  attached          := h.attached
  handler           := h.handler.setPos (fun _ => by rw [ht]; rfl)
  destroyed u hu    := h.destroyed u (pos_of_setPos (by decide) hu).2
  initializing u hu := by
    cases (h.not_initializing (.inl helapsed) u).symm.trans (initializing_of_setPos rfl hu).2
  present hready    := by
    refine h.present (Ready.of_setPos (s := s) (t := t) (p := .handling) ?_ hready)
    rw [hpos]
    exact ⟨rfl, by decide⟩
  tick tm htimer _  := by
    have htick := h.tick tm htimer (h.not_initializing (.inl helapsed))
    have hcount : (s.setPos t .handling).handlers + 0 = s.handlers + 1 := handlers_setPos hpos
    show tm.waiting.toNat + (s.elapsed - 1) + (s.setPos t .handling).handlers = _
    omega
  nobody hnone      := by
    have hsome := h.timer_of_running (t := t) (by rw [ht]; rfl) (by rw [hio]; rfl) helapsed
    rw [show s.timer = none from hnone] at hsome
    cases hsome

/-- The handler waits again. -/
theorem Timed.redeemTimer (h : Timed tout s) {tm : IdleTimer} (hpos : s.pos t = .kicking)
    (hfinite : isInfiniteTimeout tout = false) (htimer : s.timer = some tm) :
    Timed tout ({ s with timer := some { tm with waiting := true } }.setPos t .apart) := by
  -- this thread holds the one tick there is
  have hhandler : 0 < s.handlers := Family.count_pos (i := t) (by rw [hpos]; rfl)
  have hno := h.not_initializing (.inr (.inl hhandler))
  refine ⟨h.safe, h.counted, ?_, h.handler.setPos (fun hp => by cases hp), fun u hu => ?_, fun u hu => ?_,
    fun _ => rfl, fun tm' htm' _ => ?_, fun hnone => by cases hnone⟩
  · have hgen := h.service_of_timer htimer
    exact beq_iff_eq.mpr hgen
  · exact absurd (h.destroyed u (pos_of_setPos (by decide) hu).2).2 (by rw [htimer]; exact Option.some_ne_none tm)
  · cases (hno u).symm.trans (initializing_of_setPos rfl hu).2
  · cases htm'
    have htick := h.tick tm htimer hno
    have hcount : (s.setPos t .apart).handlers + 1 = s.handlers + 0 := handlers_setPos hpos
    rw [hfinite] at htick ⊢
    change _ = 1 at htick
    show 1 + s.elapsed + (s.setPos t .apart).handlers = 1
    omega

/-- With an infinite time-out nobody is in the handler. -/
theorem Timed.not_inHandler (h : Timed tout s) (hinfinite : isInfiniteTimeout tout = true) :
    (s.pos t).inHandler = false := by
  refine Bool.eq_false_iff.mpr (fun ht => ?_)
  have hhandler : 0 < s.handlers := Family.count_pos ht
  cases htimer : s.timer with
  | none =>
      have hnobody := h.nobody htimer
      omega
  | some tm =>
      have htick := h.tick tm htimer (h.not_initializing (.inr (.inl hhandler)))
      rw [hinfinite] at htick
      change _ = 0 at htick
      omega

/-- `initialize` ends: its timer waits, unless the time-out is infinite. -/
theorem Timed.initialized (h : Timed tout s) (hpos : s.pos t = .created) {tm : IdleTimer} {waiting : Bool}
    (htimer : s.timer = some tm) (hwaiting : waiting = !isInfiniteTimeout tout) :
    Timed tout ({ s with timer := some { tm with waiting := waiting } }.setPos t .apart) := by
  have hin : (s.pos t).initializing = true := by rw [hpos]; rfl
  obtain ⟨-, -, helapsed, hhandlers, halone, hnobody⟩ := h.initializing t hin
  have hcount : (s.setPos t .apart).handlers + 0 = s.handlers + 0 := handlers_setPos hpos
  refine ⟨h.safe, h.counted, ?_, h.handler.setPos (fun hp => by cases hp), fun u hu => ?_, fun u hu => ?_,
    fun _ => rfl, fun tm' htm' _ => ?_, fun hnone => by cases hnone⟩
  · have hgen := h.service_of_timer htimer
    exact beq_iff_eq.mpr hgen
  · exact absurd (h.destroyed u (pos_of_setPos (by decide) hu).2).1 (hnobody u)
  · obtain ⟨hne, hu⟩ := initializing_of_setPos rfl hu
    exact absurd (halone u hu) hne
  · cases htm'
    show waiting.toNat + s.elapsed + (s.setPos t .apart).handlers = _
    rw [hwaiting]
    omega

/-- The timer is created and does not wait yet. -/
theorem Timed.createTimer (h : Timed tout s) {io : IoService} (hpos : s.pos t = .creating)
    (hio : s.service.ioservice = some io) :
    Timed tout ({ s with timer := some ⟨io.gen, false⟩ }.setPos t .created) := by
  have hin : (s.pos t).initializing = true := by rw [hpos]; rfl
  obtain ⟨hservice, -, helapsed, hhandlers, halone, hnobody⟩ := h.initializing t hin
  have hcount : (s.setPos t .created).handlers + 0 = s.handlers + 0 := handlers_setPos hpos
  have halone' : ∀ u, ((s.setPos t .created).pos u).initializing = true → u = t := by
    intro u hu
    by_contra hne
    rw [pos_setPos hne] at hu
    exact hne (halone u hu)
  refine ⟨h.safe, h.counted, ?_, h.handler.setPos (fun hp => by cases hp), fun u hu => ?_, fun u hu => ?_,
    fun _ => rfl, fun _ _ hno => ?_, fun hnone => by cases hnone⟩
  · refine beq_iff_eq.mpr ?_
    show s.service.ioservice.map IoService.gen = some io.gen
    rw [hio]
    rfl
  · exact absurd (h.destroyed u (pos_of_setPos (by decide) hu).2).1 (hnobody u)
  · obtain rfl := halone' u hu
    refine ⟨hservice, ?_, helapsed, ?_, halone', hnobody⟩
    · rw [if_pos pos_setPos_self]
      exact ⟨_, rfl, rfl⟩
    · show (s.setPos u .created).handlers = 0
      omega
  · -- this thread is still in `initialize`
    have ht := hno t
    rw [pos_setPos_self] at ht
    cases ht

theorem Timed.destroyTimer (h : Timed tout s) (hpos : s.pos t = .apart)
    (ht : (s.service.threads t).call = .finalizing) : Timed tout ({ s with timer := none }.setPos t .destroyed) where
  safe              := h.safe
  counted           := h.counted
  attached          := rfl
  handler           := h.handler.setPos (fun hp => by cases hp)
  destroyed         := by
    intro u hu
    refine ⟨?_, rfl⟩
    by_cases hne : u = t
    · rw [hne]
      exact ht
    · rw [pos_setPos hne] at hu
      exact (h.destroyed u hu).1
  initializing u hu := absurd ht ((h.initializing u (initializing_of_setPos rfl hu).2).nobody t)
  present hready    := absurd pos_setPos_self (hready.2 t).2
  tick tm htm _     := by cases htm
  nobody _          := by
    have hcount : (s.setPos t .destroyed).handlers + 0 = s.handlers + 0 := handlers_setPos hpos
    have hnobody := h.no_handlers (h.unused ht)
    show (s.setPos t .destroyed).handlers = 0
    omega

/-- Who redeems the timer handles a tick or ends `initialize`. -/
theorem kicking_or_created (hp : p.redeems = true) : p = .kicking ∨ p = .created := by
  cases p with
  | kicking => exact .inl rfl
  | created => exact .inr rfl
  | apart | handling | creating | destroyed => cases hp

/-- What `initialize` created does not wait yet. -/
theorem Timed.timer_of_created (h : Timed tout s) (hpos : s.pos t = .created) :
    ∃ tm, s.timer = some tm ∧ tm.waiting = false := by
  have htimer := (h.initializing t (by rw [hpos]; rfl)).timer
  rw [if_pos hpos] at htimer
  exact htimer

end Timer

/-- **Every step that keeps restarts settled keeps the tick.** -/
theorem Timed.move {a : Act N} (h : Timed tout s) (hok : s.Settled a) (hm : Move tout s a s') : Timed tout s' := by
  cases hm with
  | service hadmits hm => exact h.service_move hadmits hm hok
  | elapse htimer hwaiting => exact h.elapse htimer hwaiting
  | timerHandler hpos ht hio helapsed => exact h.timerHandler hpos ht hio helapsed
  | redeemTimer hpos hfinite htimer =>
      rcases kicking_or_created hpos with hpos | hpos
      · exact h.redeemTimer hpos hfinite htimer
      · exact h.initialized hpos htimer (by rw [hfinite]; rfl)
  | @unredeemed t hpos hinfinite =>
      rcases kicking_or_created hpos with hpos | hpos
      · have hnot := h.not_inHandler (t := t) hinfinite
        rw [hpos] at hnot
        cases hnot
      · obtain ⟨tm, htimer, hidle⟩ := h.timer_of_created hpos
        have hwaiting : tm.waiting = !isInfiniteTimeout tout := by rw [hidle, hinfinite]; rfl
        have hdone := h.initialized hpos htimer hwaiting
        rw [← htimer] at hdone
        exact hdone
  | createTimer hpos hio => exact h.createTimer hpos hio
  | destroyTimer hpos ht => exact h.destroyTimer hpos ht

/-! ## Runs -/

/-- A thread behind its kick, or behind `_timer.reset`, finds the timer it redeems. -/
theorem Timed.redeems (h : Timed tout s) {t : Fin N} (hpos : (s.pos t).redeems = true)
    (hidle : (s.service.threads t).call = .idle) : (s.step tout (.redeemTimer t)).isSome = true := by
  rw [step, if_pos ⟨hpos, hidle⟩]
  split
  · rfl
  · rw [if_pos h.attached, Option.isSome_map]
    rcases kicking_or_created hpos with hpos | hpos
    · have hhandler : 0 < s.handlers := Family.count_pos (i := t) (by rw [hpos]; rfl)
      cases htimer : s.timer with
      | some tm => rfl
      | none =>
          have hnobody := h.nobody htimer
          omega
    · obtain ⟨tm, htimer, -⟩ := h.timer_of_created hpos
      rw [htimer]
      rfl

/-- A thread behind `create_io_service` finds the service. -/
theorem Timed.creates (h : Timed tout s) {t : Fin N} (hpos : s.pos t = .creating) :
    (s.step tout (.createTimer t)).isSome = true := by
  obtain ⟨io, hio⟩ := Option.isSome_iff_exists.mp (h.initializing t (by rw [hpos]; rfl)).service
  rw [step, if_pos hpos, hio]
  show (if s.attached = true then some _ else none).isSome = true
  rw [if_pos h.attached]
  rfl

/-- **Services do not come back**: the service there is and the one the timer was made with are among those created
    so far. -/
structure Aged (s : TimedService N) : Prop where
  service : ∀ io, s.service.ioservice = some io → io.gen < s.service.gens
  timer   : ∀ tm, s.timer = some tm → tm.gen < s.service.gens

theorem Aged.init : (init tout : TimedService N).Aged := by
  constructor
  · intro io hio
    cases hio
    exact Nat.one_pos
  · intro tm htm
    cases htm
    exact Nat.one_pos

/-- What the service is after a step, and how many were created. -/
theorem Aged.service_move (h : s.Aged) {a : ServiceState.Act N} {v : ServiceState N}
    (hm : ServiceState.Move s.service a v) : (s.setService a v).Aged := by
  cases hm with
  | kickHandler _ hio _ | post _ hio | stopService _ hio =>
      have hgen := h.service _ hio
      refine ⟨fun io hio' => ?_, h.timer⟩
      cases hio'
      exact hgen
  | finalize =>
      refine ⟨fun io hio => ?_, h.timer⟩
      cases hio
  | createIoService =>
      refine ⟨fun io hio => ?_, fun tm htm => Nat.lt_succ_of_lt (h.timer tm htm)⟩
      cases hio
      exact Nat.lt_succ_self _
  | enter | testWorking | callRun | returnRun | leave | canKick | incKickCount | stop | clearIsWorking | stopThrew
  | finished | elapsed | reset | setIsWorking | refused => exact ⟨h.service, h.timer⟩

/-- **Every step keeps it**, settled or not. -/
theorem Aged.move {a : Act N} (h : s.Aged) (hm : Move tout s a s') : s'.Aged := by
  cases hm with
  | service _ hm => exact h.service_move hm
  | elapse htimer _ | redeemTimer _ _ htimer =>
      have hgen := h.timer _ htimer
      refine ⟨h.service, fun tm htm => ?_⟩
      cases htm
      exact hgen
  | timerHandler | unredeemed => exact ⟨h.service, h.timer⟩
  | createTimer _ hio =>
      refine ⟨h.service, fun tm htm => ?_⟩
      cases htm
      exact h.service _ hio
  | destroyTimer =>
      refine ⟨h.service, fun tm htm => ?_⟩
      cases htm

/-- **A service created with a timer there leaves it with the one before.** -/
theorem Aged.dangles (h : s.Aged) {t : Fin N} (htimer : s.timer.isSome = true)
    (hs : s.step tout (.service (.call t .createIoService)) = some s') : s'.attached = false := by
  obtain ⟨tm, htm⟩ := Option.isSome_iff_exists.mp htimer
  cases step_move hs with
  | service _ hm =>
      cases hm with
      | createIoService =>
          show s.timer.all (fun tm => some s.service.gens == some tm.gen) = false
          rw [htm]
          have hlt := h.timer tm htm
          refine beq_eq_false_iff_ne.mpr (fun he => ?_)
          rw [Option.some.inj he] at hlt
          exact Nat.lt_irrefl _ hlt
      | refused hop => rcases hop with hop | hop | hop <;> cases hop

/-- **The idle timer ticks as long as there is a service, and is never left without one.** After any steps of any
    number of threads in `run`, `kick_dispatcher`, `timer_handler`, `stop` and `reset`, in which restarts are settled
    and `initialize` and `finalize` take turns: the timer, if there is one, belongs to the service there is; who is
    about to redeem or to create it finds what it needs; and once both are there, a tick is pending, queued or being
    handled, and only one, unless the time-out is infinite and there is none. Settled or not, a service that is created
    with a timer there leaves the timer with one that is destroyed. -/
theorem one_tick (as : List (Act N)) (s : TimedService N) (hrun : Machine.run (step tout) (init tout) as = some s) :
    (Machine.Guarded (step tout) Settled (init tout) as →
      s.attached = true
        ∧ (∀ t, (s.pos t).redeems = true → (s.service.threads t).call = .idle →
            (s.step tout (.redeemTimer t)).isSome = true)
        ∧ (∀ t, s.pos t = .creating → (s.step tout (.createTimer t)).isSome = true)
        ∧ (s.Ready → ∃ tm, s.timer = some tm
            ∧ tm.waiting.toNat + s.elapsed + s.handlers = (!isInfiniteTimeout tout).toNat))
      ∧ ∀ t s', s.timer.isSome = true → s.step tout (.service (.call t .createIoService)) = some s' →
          s'.attached = false := by
  refine ⟨fun hok => ?_, fun t s' htimer hs => ?_⟩
  · have h : Timed tout s := Machine.run_guarded_invariant (Timed tout)
      (fun _ _ _ h hok hs => h.move hok (step_move hs)) as _ _ .init hok hrun
    refine ⟨h.attached, fun t hpos hidle => h.redeems hpos hidle, fun t hpos => h.creates hpos, fun hready => ?_⟩
    obtain ⟨tm, htimer⟩ := Option.isSome_iff_exists.mp (h.present hready)
    exact ⟨tm, htimer, h.tick tm htimer (fun t => (hready.2 t).1)⟩
  · have h : s.Aged := Machine.run_invariant Aged (fun _ _ _ h hs => h.move (step_move hs)) as _ _ .init hrun
    exact h.dangles htimer hs

/-- The steps of a service as steps of the whole. -/
def services (as : List (ServiceState.Act N)) : List (Act N) := as.map .service

/-- The wait is over and thread `t` handles it. -/
def ticks (t : Fin N) : List (Act N) :=
  [.elapse, .timerHandler t] ++ services (ServiceState.kickBy t) ++ [.redeemTimer t]

/-- The wait of `stop` is over, and nobody is left. -/
def finalizes (u : Fin N) : List (Act N) :=
  [.service (.call u .waitEnds), .destroyTimer u, .service (.call u .finalize)]

/-- Thread `t` handles a tick, `u` restarts the dispatcher, and the next tick is over. -/
def tickedTwice (t u : Fin N) : List (Act N) :=
  services (ServiceState.enters t) ++ ticks t ++ services (ServiceState.stopBy u ++ ServiceState.leaves t)
    ++ finalizes u ++ services (ServiceState.resetBy u) ++ [.createTimer u, .redeemTimer u, .elapse]

/-- The guarantee on that run. -/
theorem one_tick_ticked : ∃ s : TimedService 2,
    Machine.run (step 100) (init 100) (tickedTwice 0 1) = some s ∧ s.attached = true ∧ s.Ready
      ∧ ∃ tm, s.timer = some tm ∧ tm.waiting.toNat + s.elapsed + s.handlers = 1 := by
  have h := (@one_tick 2 100 (tickedTwice 0 1) _ rfl).1 (by decide +kernel)
  exact ⟨_, rfl, h.1, ⟨rfl, by decide +kernel⟩, h.2.2.2 ⟨rfl, by decide +kernel⟩⟩

/-- **A dispatcher that is reset after the wait of `stop` elapsed** leaves the timer with a service that is destroyed,
    although no thread uses that service any more and the restart is settled. -/
theorem timer_dangles : ∃ (as : List (ServiceState.Act 2)) (s : TimedService 2),
    Machine.Guarded ServiceState.step ServiceState.RestartsSettled .init as
      ∧ Machine.run (step 100) (init 100) (services as) = some s ∧ s.service.Owned ∧ s.attached = false :=
  ⟨ServiceState.enters 0 ++ ServiceState.stopBy 1 ++ [.call 1 .waitEnds] ++ ServiceState.leaves 0
    ++ ServiceState.resetBy 1, _, by decide +kernel, rfl, by decide +kernel, rfl⟩

/-! ## What a tick is for -/

theorem Handling.init : (init tout : TimedService N).Handling := by
  intro t ht
  cases ht

/-- **Every step keeps the handlers inside `run`**, settled or not. -/
theorem Handling.move {a : Act N} (h : s.Handling) (hm : Move tout s a s') : s'.Handling := by
  cases hm with
  | service hadmits hm => exact h.service hadmits hm
  | elapse => exact h
  | timerHandler _ ht _ _ => exact h.setPos (fun _ => by rw [ht]; rfl)
  | redeemTimer | unredeemed | createTimer | destroyTimer => exact h.setPos (fun hp => by cases hp)

/-- No step destroys a service with a kick handler in it. -/
def KeepsKicks (s : TimedService N) : Act N → Prop
  | .service a => s.service.KeepsKicks a
  | _          => True

/-- Who is counted, and that no kick was lost. -/
structure Kicked (s : TimedService N) : Prop where
  counted  : s.service.RunCounted
  lost     : s.service.lost = 0
  handling : s.Handling

theorem Kicked.move {a : Act N} (h : s.Kicked) (hok : s.KeepsKicks a) (hm : Move tout s a s') : s'.Kicked := by
  refine ⟨?_, ?_, h.handling.move hm⟩
  · cases hm with
    | service _ hm => exact h.counted.move hm
    | elapse | timerHandler | redeemTimer | unredeemed | createTimer | destroyTimer => exact h.counted
  · cases hm with
    | @service a v _ hm =>
        have hlost := hm.lost
        rw [h.lost] at hlost
        by_cases hdestroys : a.destroys = true
        · rw [if_pos hdestroys, hok hdestroys] at hlost
          exact hlost
        · rw [if_neg hdestroys] at hlost
          exact hlost
    | elapse | timerHandler | redeemTimer | unredeemed | createTimer | destroyTimer => exact h.lost

/-- **A tick kicks the dispatcher, or a kick is on its way**: as long as no service was destroyed with a kick handler in
    it, a thread that handles a tick goes on to post a kick handler, or one is queued or about to be posted already.
    Once a kick was dropped (`ServiceState.lost`) the ticks may be suppressed like all other kicks. -/
theorem tick_kicks (as : List (Act N)) (s s' : TimedService N)
    (hok : Machine.Guarded (step tout) KeepsKicks (init tout) as)
    (hrun : Machine.run (step tout) (init tout) as = some s) {t : Fin N} (hpos : s.pos t = .handling)
    (hs : s.step tout (.service (.call t .canKick)) = some s') :
    (s'.service.threads t).call = .kickAllowed ∨ 0 < s'.service.queued + s'.service.posters := by
  have h : s.Kicked := Machine.run_guarded_invariant Kicked (fun _ _ _ h hok hs => h.move hok (step_move hs)) as _ _
    ⟨.init, ServiceState.lost_init, .init⟩ hok hrun
  rw [step] at hs
  split at hs
  · obtain ⟨v, hv, rfl⟩ := Option.map_eq_some_iff.mp hs
    rcases ServiceState.allowed_or_full hv with hallowed | ⟨rfl, hfull⟩
    · exact .inl hallowed
    · right
      -- this thread is counted, so there is a kick, and it was not lost
      have hcounted : 0 < Family.count ServiceThread.inside s.service.threads :=
        Family.count_pos (ServiceThread.inside_of_usesService (h.handling t (by rw [hpos]; rfl)))
      have hrunCount := h.counted
      have hlost := h.lost
      rw [ServiceState.RunCounted] at hrunCount
      rw [ServiceState.lost] at hlost
      show 0 < s.service.queued + s.service.posters
      omega
  · cases hs

end TimedService

end Unicomm
