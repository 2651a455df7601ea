import Unicomm.Lib.Family
import Unicomm.Lib.Machine

/-!
# `Server.Acceptor` — the acceptor of a server over its start, stop and reset cycles

Models what `server.cpp` does with `_acceptor`: `accept`, `start_accept`, `stop_accept`, the accept handler, and
`stop` and `reset` as far as they reach it. Everything but a plain test of `is_acceptor()` asserts that the acceptor
exists, and uses it. No lock holds the test or the assertion together with the use. A call from
within the accept handler is one of another thread, during which the thread of the handler makes no step.

A thread relies on the acceptor from its test, or from the call of `accept()` or of the handler, to its last use.
As long as these calls find an acceptor and nobody destroys it while another thread relies on it (`Safe`), it exists
whenever it is used (`acceptor_exists`). The handler of a connection that was accepted before the acceptor was
destroyed breaks the first condition: it starts the next accept whatever has happened since.
-/

namespace Unicomm

/-- Where a thread stands. `listens` tells that `create_listening_socket` called `open_acceptor`, `stops` that `stop`
    called `destroy_acceptor`. -/
inductive ServerPos where
  | idle
  /-- In `asio_accept_handler`, with success: the sentry is to call `just_start_accept`. -/
  | handling
  /-- `start_accept` found no acceptor: `create_acceptor`. -/
  | creatingListener
  /-- The assertion of `start_accept`. -/
  | acceptAssert
  /-- The assertion of `just_start_accept`. -/
  | startAssert
  /-- The assertion of `open_acceptor`. -/
  | openAssert (listens : Bool)
  /-- `is_acceptor_opened()` in `open_acceptor`. -/
  | openTest (listens : Bool)
  | opening (listens : Bool)
  | binding (listens : Bool)
  | listening (listens : Bool)
  /-- `acceptor().async_accept`. -/
  | accepting
  /-- `is_working()` was true: `clear_is_working`. -/
  | stopAllowed
  /-- `is_acceptor()` in `destroy_acceptor`. -/
  | destroyTest (stops : Bool)
  /-- The assertion of `close_acceptor`. -/
  | closeAssert (stops : Bool)
  /-- `is_acceptor_opened()` in `close_acceptor`. -/
  | closeTest (stops : Bool)
  | closing (stops : Bool)
  /-- `_acceptor.reset()`. -/
  | destroying (stops : Bool)
  /-- `on_stop` is done, the clients are waited for: `ioservice().stop()`. -/
  | stoppingService
  /-- `wait_for_run_finished`, then `finalize`. -/
  | finalizing
  /-- `is_working()` was false: `set_is_working`. -/
  | resetAllowed
  /-- `create_io_service`. -/
  | creatingService
  /-- `create_acceptor`. -/
  | creatingAcceptor
  deriving DecidableEq, Repr

namespace ServerPos

/-- What comes next uses the acceptor, or asserts that it exists. -/
def touches : ServerPos → Bool
  | .acceptAssert | .startAssert | .openAssert _ | .openTest _ | .opening _ | .binding _ | .listening _ | .accepting
  | .closeAssert _ | .closeTest _ | .closing _ => true
  | _ => false

/-- The thread is going to use the acceptor without a test before. -/
def relies : ServerPos → Bool
  | .handling => true
  | pos       => pos.touches

/-- `_acceptor.reset()` comes next. -/
def destroys : ServerPos → Bool
  | .destroying _ => true
  | _             => false

/-- Where `open_acceptor` returns to. -/
def afterOpen (listens : Bool) : ServerPos := if listens then .acceptAssert else .accepting

/-- Where `destroy_acceptor` returns to. -/
def afterDestroy (stops : Bool) : ServerPos := if stops then .stoppingService else .idle

end ServerPos

/-- A server as far as its acceptor goes. -/
structure Server (N : Nat) where
  /-- `_acceptor`, and whether it is open. -/
  acceptor  : Option Bool
  isWorking : Bool
  /-- The `io_service` executes handlers. -/
  running   : Bool
  /-- The `async_accept`s that have not completed. -/
  waiting   : Nat
  /-- The ones that completed with success and whose handler is queued. -/
  queued    : Nat
  threads   : Fin N → ServerPos
  /-- The acceptor was used, or asserted to exist, and there was none. **No step reads it.** -/
  failed    : Bool

namespace Server

variable {N : Nat}

/-- The atomic steps. -/
inductive Act (N : Nat) where
  | accept (t : Fin N)
  | startAccept (t : Fin N)
  | stopAccept (t : Fin N)
  /-- `stop()` and its `is_working()`. -/
  | stop (t : Fin N)
  /-- `reset()` and its `is_working()`. -/
  | reset (t : Fin N)
  /-- The handler of an accept that succeeded is called. -/
  | handle (t : Fin N)
  /-- A connection is accepted: the handler is queued with success. -/
  | complete
  /-- An `async_accept` fails. Its handler does nothing. -/
  | fail
  /-- The next step of a thread; `fails` tells that it throws, or that the wait for the threads times out. -/
  | run (t : Fin N) (fails : Bool)
  deriving DecidableEq

/-- A constructed server: the acceptor exists, not yet open. -/
def init : Server N := ⟨some false, true, true, 0, 0, fun _ => .idle, false⟩

/-- `is_acceptor`. -/
def isAcceptor (s : Server N) : Bool := s.acceptor.isSome

/-- Thread `t` moves to another position. -/
def goTo (s : Server N) (t : Fin N) (pos : ServerPos) : Server N :=
  { s with threads := Function.update s.threads t pos }

/-- `create_acceptor`. The old acceptor, if any, is destroyed with its operations. -/
def createAcceptor (s : Server N) : Server N := { s with acceptor := some false, waiting := 0 }

/-- What a thread does next when the acceptor, if it is used, exists; `opened` is whether it is open. -/
def advance (s : Server N) (t : Fin N) (opened fails : Bool) : ServerPos → Option (Server N)
  | .idle               => none
  | .handling           => some (s.goTo t .startAssert)
  | .creatingListener   => some (s.createAcceptor.goTo t (.openAssert true))
  | .acceptAssert       => some (s.goTo t .startAssert)
  | .startAssert        => some (s.goTo t (.openAssert false))
  | .openAssert listens => some (s.goTo t (.openTest listens))
  | .openTest listens   => some (s.goTo t (if opened then .afterOpen listens else .opening listens))
  | .opening listens    =>
      some (if fails then s.goTo t .idle else { s.goTo t (.binding listens) with acceptor := some true })
  | .binding listens    => some (s.goTo t (if fails then .idle else .listening listens))
  | .listening listens  => some (s.goTo t (if fails then .idle else .afterOpen listens))
  | .accepting          => some (if fails then s.goTo t .idle else { s.goTo t .idle with waiting := s.waiting + 1 })
  | .stopAllowed        => some { s.goTo t (.destroyTest true) with isWorking := false }
  | .destroyTest stops  => some (s.goTo t (if s.isAcceptor then .closeAssert stops else .afterDestroy stops))
  | .closeAssert stops  => some (s.goTo t (.closeTest stops))
  | .closeTest stops    => some (s.goTo t (if opened then .closing stops else .destroying stops))
  -- what `close` throws is caught, and the socket is closed all the same
  | .closing stops      => some { s.goTo t (.destroying stops) with acceptor := some false, waiting := 0 }
  | .destroying stops   => some { s.goTo t (.afterDestroy stops) with acceptor := none, waiting := 0 }
  | .stoppingService    => some (if fails then s.goTo t .idle else { s.goTo t .finalizing with running := false })
  | .finalizing         => some (if fails then s.goTo t .idle else { s.goTo t .idle with waiting := 0, queued := 0 })
  | .resetAllowed       => some { s.goTo t .creatingService with isWorking := true }
  | .creatingService    => some { s.goTo t .creatingAcceptor with running := true, waiting := 0, queued := 0 }
  | .creatingAcceptor   => some (s.createAcceptor.goTo t .idle)

/-- One step; `none` when it is not possible. -/
def step (s : Server N) : Act N → Option (Server N)
  | .accept t      => if s.threads t = .idle then some (s.goTo t .startAssert) else none
  | .startAccept t =>
      if s.threads t = .idle then some (s.goTo t (if s.isAcceptor then .acceptAssert else .creatingListener)) else none
  | .stopAccept t  => if s.threads t = .idle then some (s.goTo t (.destroyTest false)) else none
  | .stop t        =>
      if s.threads t = .idle then some (s.goTo t (if s.isWorking then .stopAllowed else .idle)) else none
  | .reset t       =>
      if s.threads t = .idle then some (s.goTo t (if s.isWorking then .idle else .resetAllowed)) else none
  | .handle t      =>
      if s.threads t = .idle ∧ s.running = true ∧ 0 < s.queued then
        some { s.goTo t .handling with queued := s.queued - 1 }
      else none
  | .complete      =>
      if s.running = true ∧ 0 < s.waiting then
        some { s with waiting := s.waiting - 1, queued := s.queued + 1 }
      else none
  | .fail          => if 0 < s.waiting then some { s with waiting := s.waiting - 1 } else none
  | .run t fails   =>
      match s.acceptor with
      | some opened => s.advance t opened fails (s.threads t)
      | none        =>
          if (s.threads t).touches then some { s with failed := true } else s.advance t false fails (s.threads t)

/-- `accept()` and the handler of an accepted connection find an acceptor, and nobody destroys it while another
    thread relies on it. -/
def Safe (s : Server N) : Act N → Prop
  | .accept _ | .handle _ => s.isAcceptor = true
  | .run t _              => (s.threads t).destroys = true → ∀ u, u ≠ t → (s.threads u).relies = false
  | _                     => True

instance (s : Server N) : ∀ a, Decidable (Safe s a)
  | .accept _ | .handle _ => inferInstanceAs (Decidable (_ = _))
  | .run _ _ => inferInstanceAs (Decidable (_ → ∀ _, _ → _))
  | .startAccept _ | .stopAccept _ | .stop _ | .reset _ | .complete | .fail => inferInstanceAs (Decidable True)

variable {s s' : Server N} {a : Act N} {t u : Fin N} {pos : ServerPos}

@[simp] theorem goTo_self (s : Server N) (t : Fin N) (pos : ServerPos) : (s.goTo t pos).threads t = pos :=
  Function.update_self ..

theorem goTo_of_ne (s : Server N) (pos : ServerPos) (hut : u ≠ t) : (s.goTo t pos).threads u = s.threads u :=
  Function.update_of_ne hut ..

@[simp] theorem isAcceptor_goTo (s : Server N) (t : Fin N) (pos : ServerPos) :
    (s.goTo t pos).isAcceptor = s.isAcceptor := by
  rw [isAcceptor, isAcceptor, goTo]

/-! ## What a step does -/

/-- **A step of a thread** takes the acceptor away only where it destroys it, and leads to a position that relies on
    the acceptor only from such a position or when there is one. -/
theorem advance_spec {opened fails : Bool} (h : s.advance t opened fails pos = some s') :
    ∃ pos', s'.threads = Function.update s.threads t pos' ∧ s'.failed = s.failed
      ∧ (pos.destroys = false → s.isAcceptor = true → s'.isAcceptor = true)
      ∧ (pos'.relies = true → pos.relies = true ∨ s'.isAcceptor = true) := by
  cases pos with
  | idle => cases h
  | handling | acceptAssert | startAssert | openAssert | openTest | binding | listening | closeAssert | closeTest =>
      cases h
      exact ⟨_, rfl, rfl, fun _ hs => hs, fun _ => .inl rfl⟩
  | opening listens =>
      cases h
      cases fails with
      | true => exact ⟨_, rfl, rfl, fun _ hs => hs, fun _ => .inl rfl⟩
      | false => exact ⟨_, rfl, rfl, fun _ _ => rfl, fun _ => .inl rfl⟩
  | accepting =>
      cases h
      cases fails with
      | true => exact ⟨_, rfl, rfl, fun _ hs => hs, fun _ => .inl rfl⟩
      | false => exact ⟨_, rfl, rfl, fun _ hs => hs, fun _ => .inl rfl⟩
  -- these leave an acceptor behind
  | creatingListener | creatingAcceptor | closing =>
      cases h
      exact ⟨_, rfl, rfl, fun _ _ => rfl, fun _ => .inr rfl⟩
  -- the test goes on to the destruction only with an acceptor
  | destroyTest stops =>
      cases h
      refine ⟨_, rfl, rfl, fun _ hs => hs, fun hrelies => .inr ?_⟩
      by_contra hno
      rw [isAcceptor_goTo] at hno
      rw [if_neg hno] at hrelies
      cases stops <;> cases hrelies
  | destroying stops =>
      cases h
      refine ⟨_, rfl, rfl, fun hd => (by cases hd), fun hrelies => ?_⟩
      cases stops <;> cases hrelies
  | stoppingService | finalizing =>
      cases h
      cases fails with
      | true => exact ⟨_, rfl, rfl, fun _ hs => hs, fun hrelies => by cases hrelies⟩
      | false => exact ⟨_, rfl, rfl, fun _ hs => hs, fun hrelies => by cases hrelies⟩
  | stopAllowed | resetAllowed | creatingService =>
      cases h
      exact ⟨_, rfl, rfl, fun _ hs => hs, fun hrelies => by cases hrelies⟩

/-- **Whoever relies on the acceptor has one**, and nobody has missed it. -/
structure Inv (s : Server N) : Prop where
  held   : ∀ t, (s.threads t).relies = true → s.isAcceptor = true
  failed : s.failed = false

theorem Inv.init : (Server.init : Server N).Inv := ⟨fun _ h => (by cases h), rfl⟩

/-- Whoever is about to use the acceptor relies on it. -/
theorem relies_of_touches (h : pos.touches = true) : pos.relies = true := by
  cases pos <;> first | exact h | cases h

/-- Whoever relies on the acceptor is not about to destroy it. -/
theorem destroys_of_relies (h : pos.relies = true) : pos.destroys = false := by
  cases pos <;> first | rfl | cases h

/-- **A thread moves.** The acceptor may disappear when no other thread relies on it. -/
theorem Inv.goTo (h : s.Inv) {pos : ServerPos} (hthreads : s'.threads = Function.update s.threads t pos)
    (hfailed : s'.failed = s.failed) (hpos : pos.relies = true → s'.isAcceptor = true)
    (hothers : ∀ u, u ≠ t → (s.threads u).relies = true → s'.isAcceptor = true) : s'.Inv := by
  refine ⟨?_, hfailed.trans h.failed⟩
  rw [hthreads]
  exact Family.forall_update_of_ne (P := fun pos : ServerPos => pos.relies = true → s'.isAcceptor = true) hothers hpos

/-- A call begins; it relies on the acceptor only if there is one. -/
theorem Inv.begin (h : s.Inv) {pos : ServerPos} (hpos : pos.relies = true → s.isAcceptor = true) :
    (s.goTo t pos).Inv :=
  h.goTo rfl rfl hpos (fun u _ hu => h.held u hu)

theorem Inv.advance (h : s.Inv) {opened fails : Bool} (hok : Safe s (.run t fails))
    (hadvance : s.advance t opened fails (s.threads t) = some s') : s'.Inv := by
  obtain ⟨pos', hthreads, hfailed, hkeep, hpos⟩ := advance_spec hadvance
  refine h.goTo hthreads hfailed (fun hrelies => ?_) (fun u hut hu => ?_)
  · rcases hpos hrelies with hold | hnew
    · exact hkeep (destroys_of_relies hold) (h.held t hold)
    · exact hnew
  · apply hkeep _ (h.held u hu)
    by_contra hdestroys
    rw [hok (Bool.not_eq_false _ ▸ hdestroys) u hut] at hu
    cases hu

/-- **Every safe step keeps it.** -/
theorem Inv.step (h : s.Inv) (hok : Safe s a) (hstep : Server.step s a = some s') : s'.Inv := by
  cases a with
  | accept t =>
      rw [Server.step] at hstep
      split at hstep <;> cases hstep
      -- `accept` itself makes no test: that is what the guarantee is for
      exact h.begin (fun _ => hok)
  | startAccept t =>
      rw [Server.step] at hstep
      split at hstep <;> cases hstep
      refine h.begin (fun hrelies => ?_)
      -- without an acceptor `start_accept` creates one first
      by_contra hno
      rw [if_neg hno] at hrelies
      cases hrelies
  | stopAccept t =>
      rw [Server.step] at hstep
      split at hstep <;> cases hstep
      exact h.begin (fun hrelies => by cases hrelies)
  | stop t | reset t =>
      rw [Server.step] at hstep
      split at hstep <;> cases hstep
      refine h.begin (fun hrelies => ?_)
      split at hrelies <;> cases hrelies
  | handle t =>
      rw [Server.step] at hstep
      split at hstep <;> cases hstep
      exact h.goTo rfl rfl (fun _ => hok) (fun u _ hu => h.held u hu)
  | complete | fail =>
      rw [Server.step] at hstep
      split at hstep <;> cases hstep
      exact ⟨h.held, h.failed⟩
  | run t fails =>
      rw [Server.step] at hstep
      split at hstep
      · exact h.advance hok hstep
      · next hnone =>
          split at hstep
          · next htouches =>
              have hheld := h.held t (relies_of_touches htouches)
              rw [isAcceptor, hnone] at hheld
              cases hheld
          · exact h.advance hok hstep

/-! ## Runs -/

/-- A thread that relies on an acceptor that is gone uses it. -/
theorem relies_fails (hnone : s.acceptor = none) (hu : (s.threads u).relies = true) :
    ∃ as s', Machine.run step s as = some s' ∧ s'.failed = true := by
  have htouch : ∀ s : Server N, s.acceptor = none → (s.threads u).touches = true →
      step s (.run u false) = some { s with failed := true } := by
    intro s hnone htouches
    rw [step, hnone]
    exact if_pos htouches
  by_cases htouches : (s.threads u).touches = true
  · exact ⟨[.run u false], _, Machine.run_cons_eq_some.mpr ⟨_, htouch s hnone htouches, rfl⟩, rfl⟩
  · -- only the accept handler relies on the acceptor without using it next
    have hpos : s.threads u = .handling := by
      cases hp : s.threads u with
      | handling => rfl
      | _ => rw [hp] at hu htouches; exact absurd hu htouches
    have hhandle : step s (.run u false) = some (s.goTo u .startAssert) := by
      rw [step, hnone, hpos]
      rfl
    have hassert := htouch (s.goTo u .startAssert) hnone (by rw [goTo_self]; rfl)
    exact ⟨[.run u false, .run u false], _, Machine.run_cons_eq_some.mpr ⟨_, hhandle,
      Machine.run_cons_eq_some.mpr ⟨_, hassert, rfl⟩⟩, rfl⟩

/-- Any other step can be followed by a use of an acceptor that is gone. -/
theorem not_safe_fails (hok : ¬ Safe s a) (hstep : step s a = some s') :
    ∃ as s'', Machine.run step s' as = some s'' ∧ s''.failed = true := by
  cases a with
  | startAccept | stopAccept | stop | reset | complete | fail => exact absurd trivial hok
  | accept t =>
      rw [step] at hstep
      split at hstep <;> cases hstep
      exact relies_fails (Option.not_isSome_iff_eq_none.mp hok) (by rw [goTo_self]; rfl)
  | handle t =>
      rw [step] at hstep
      split at hstep <;> cases hstep
      refine relies_fails (u := t) (Option.not_isSome_iff_eq_none.mp hok) ?_
      show ((s.goTo t .handling).threads t).relies = true
      rw [goTo_self]
      rfl
  | run t fails =>
      obtain ⟨hdestroys, hothers⟩ := Classical.not_imp.mp hok
      obtain ⟨u, hu⟩ := not_forall.mp hothers
      obtain ⟨hut, hrelies⟩ := Classical.not_imp.mp hu
      rw [Bool.not_eq_false] at hrelies
      -- `t` destroys the acceptor while `u` relies on it
      obtain ⟨stops, hpos⟩ : ∃ stops, s.threads t = .destroying stops := by
        cases hp : s.threads t with
        | destroying stops => exact ⟨stops, rfl⟩
        | _ => rw [hp] at hdestroys; cases hdestroys
      have hs' : s' = { s.goTo t (.afterDestroy stops) with acceptor := none, waiting := 0 } := by
        rw [step, hpos] at hstep
        split at hstep <;> cases hstep <;> rfl
      subst hs'
      refine relies_fails (u := u) rfl ?_
      show ((s.goTo t (.afterDestroy stops)).threads u).relies = true
      rw [s.goTo_of_ne _ hut]
      exact hrelies

/-- **The server uses its acceptor only while it exists**, for any number of threads and every order of calls,
    completions and steps in which `accept()` and the handler of an accepted connection find an acceptor and nobody
    destroys it while another thread relies on it. Any other step can be followed by a use of the acceptor while
    there is none. -/
theorem acceptor_exists (as : List (Act N)) (s : Server N) (hrun : Machine.run step init as = some s) :
    (Machine.Guarded step Safe init as →
        s.failed = false ∧ ∀ t, (s.threads t).touches = true → s.isAcceptor = true)
      ∧ ∀ a s', ¬ Safe s a → step s a = some s' →
          ∃ bs s'', Machine.run step s' bs = some s'' ∧ s''.failed = true := by
  refine ⟨fun hguard => ?_, fun a s' hno hstep => not_safe_fails hno hstep⟩
  have hinv := Machine.run_guarded_invariant Inv (fun _ _ _ h hok hstep => h.step hok hstep) as _ s .init hguard hrun
  exact ⟨hinv.failed, fun t ht => hinv.held t (relies_of_touches ht)⟩

/-- `n` steps of thread `t`, none of which throws. -/
def runs (t : Fin N) (n : Nat) : List (Act N) := List.replicate n (.run t false)

/-- `accept()` on a server whose acceptor is not yet open. -/
def firstAccept (t : Fin N) : List (Act N) := .accept t :: runs t 7

/-- A connection is accepted and handled before the server is stopped; then it is reset and accepts again. -/
def orderly (t u : Fin N) : List (Act N) :=
  firstAccept t ++ [.complete, .handle u, .stop t] ++ runs u 5 ++ runs t 8 ++ [.reset u] ++ runs u 3 ++ firstAccept t

/-- The guarantee on that run. -/
theorem acceptor_exists_orderly : ∃ s : Server 2, Machine.run step init (orderly 0 1) = some s
    ∧ s.acceptor = some true ∧ s.waiting = 1 ∧ s.failed = false :=
  ⟨_, rfl, rfl, rfl, ((acceptor_exists (orderly 0 1) _ rfl).1 (by decide)).1⟩

/-- **A connection that was accepted before the acceptor is destroyed** is still handled, and its handler starts the
    next accept on an acceptor that is gone. -/
theorem acceptor_missed : ¬ ∀ (as : List (Act 2)) (s : Server 2),
    Machine.run step init as = some s → s.failed = false := by
  intro hclaim
  have hfailed := hclaim (firstAccept 0 ++ [.complete, .stop 1] ++ runs 1 6 ++ [.handle 0] ++ runs 0 2) _ rfl
  cases hfailed

end Server

end Unicomm
