import Unicomm.Lib.Family
import Unicomm.Dispatcher.Service

/-!
# `Dispatcher.Ownership` — whether the `io_service` outlives its users

A thread of `run` uses a service from the moment `is_working()` is true until `io_service::run` returns. `stop`
protects it: it clears `_is_working` and destroys the service only once `run_count()` is zero. `reset` does not:
it stores into `_is_working` **before** it replaces the service, and asks neither for threads that are still
inside the old one nor for a `stop` that is about to destroy it. `Safe` is what holds as long as no restart
comes too early (`RestartsSettled`), and `ioservice_outlives` is the result.
-/

namespace Unicomm

/-! ## Users and owners of the service -/

namespace ServiceThread

variable (x : ServiceThread)

/-- The thread is counted in `_run_count`. -/
def inside : Bool := x.run != .outside

/-- The thread is between a test that gave true and the return of `io_service::run`. -/
def usesService : Bool :=
  match x.run with
  | .evaluating | .running _ => true
  | _ => false

/-- The thread is about to destroy or to replace the service. -/
def replaces : Bool :=
  match x.call with
  | .finalizing | .resetSet => true
  | _ => false

/-- A thread that uses the service is counted. -/
theorem inside_of_usesService {x : ServiceThread} (h : x.usesService = true) : x.inside = true := by
  obtain ⟨run, call⟩ := x
  cases run <;> first | rfl | cases h

end ServiceThread

namespace ServiceState

variable {N : Nat} (s : ServiceState N)

/-- A thread that stands at `pos` finds the service it needs: some service when it evaluates `ioservice()`, the
    one it runs when it is inside `io_service::run`. -/
def provides : RunPos → Bool
  | .evaluating => s.ioservice.isSome
  | .running g  => s.ioservice.map IoService.gen == some g
  | _           => true

/-- **The service outlives its users.** -/
def Owned : Prop := ∀ t, s.provides (s.threads t).run = true

instance : Decidable s.Owned := inferInstanceAs (Decidable (∀ _, _ = true))

/-- No thread uses a service. -/
def Unused : Prop := ∀ t, (s.threads t).usesService = false

instance : Decidable s.Unused := inferInstanceAs (Decidable (∀ _, _ = false))

/-- **Restarts are settled**: `reset` sets `_is_working` only when no thread uses a service and no `stop` is
    about to finalize; no `stop` goes on to finalize once `_is_working` is set again; and no thread of `run`
    finds `_is_working` set before `reset` has created the service. -/
def RestartsSettled : Act N → Prop
  | .call _ .setIsWorking => s.Unused ∧ ∀ u, (s.threads u).call ≠ .finalizing
  | .call _ .waitEnds     => s.runCount = 0 → s.isWorking = false
  | .run _ .testWorking   => s.isWorking = true → ∀ u, (s.threads u).call ≠ .resetSet
  | _                     => True

instance (a : Act N) : Decidable (s.RestartsSettled a) := by
  unfold RestartsSettled
  split <;> infer_instance

/-! ## The threads counted -/

/-- `_run_count` is the number of threads inside `run`. -/
def RunCounted : Prop := s.runCount = Family.count ServiceThread.inside s.threads

theorem RunCounted.init : (ServiceState.init : ServiceState N).RunCounted := by
  rw [RunCounted, ServiceState.init, Family.count_const rfl]; rfl

variable {s} {s' : ServiceState N} {t : Fin N} {x : ServiceThread}

/-- The counter follows the thread that moves. -/
theorem RunCounted.update (h : s.RunCounted) (hthreads : s'.threads = Function.update s.threads t x)
    (hcount : s'.runCount + (s.threads t).inside.toNat = s.runCount + x.inside.toNat) : s'.RunCounted := by
  have hmove := Family.count_update ServiceThread.inside s.threads t x
  rw [RunCounted] at h ⊢
  rw [hthreads]
  omega

/-- **Every step counts right.** -/
theorem RunCounted.move {a : Act N} (h : s.RunCounted) (hm : Move s a s') : s'.RunCounted := by
  cases hm with
  | @enter t ht =>
      refine h.update (t := t) rfl ?_
      rw [ht]
      show s.runCount + 1 + 0 = s.runCount + 1
      omega
  | @leave t ht =>
      refine h.update (t := t) rfl ?_
      rw [ht]
      show s.runCount - 1 + 1 = s.runCount + 0
      omega
  | testWorking ht =>
      refine h.update rfl ?_
      rw [ht]
      cases s.isWorking <;> rfl
  | callRun ht _ | returnRun ht => exact h.update rfl (by rw [ht]; rfl)
  | kickHandler | refused => exact h
  | canKick | incKickCount | post | stop | clearIsWorking | stopThrew | stopService | finished | elapsed | finalize
  | reset | setIsWorking | createIoService => exact h.update rfl rfl

/-- When the counter is zero no thread uses a service. -/
theorem RunCounted.unused (h : s.RunCounted) (hrun : s.runCount = 0) : s.Unused := by
  intro u
  refine Bool.eq_false_iff.mpr (fun hu => ?_)
  have hpos : 0 < Family.count ServiceThread.inside s.threads :=
    Family.count_pos (ServiceThread.inside_of_usesService hu)
  rw [RunCounted] at h
  omega

/-! ## The invariant -/

/-- What holds as long as restarts are settled. -/
structure Safe (s : ServiceState N) : Prop where
  cleared : ∀ u, (s.threads u).call = .finalizing → s.isWorking = false
  /-- Whoever destroys or replaces the service is alone with it. -/
  alone   : ∀ u, (s.threads u).replaces = true → s.Unused
  working : s.isWorking = true → (∀ u, (s.threads u).call ≠ .resetSet) → s.ioservice.isSome = true
  owned   : s.Owned

theorem Safe.init : (ServiceState.init : ServiceState N).Safe where
  cleared _ h := by cases h
  alone _ h   := by cases h
  working _ _ := rfl
  owned _     := rfl

theorem provides_congr (hio : s'.ioservice.map IoService.gen = s.ioservice.map IoService.gen) (pos : RunPos) :
    s'.provides pos = s.provides pos := by
  have hsome : s'.ioservice.isSome = s.ioservice.isSome := by
    rw [← Option.isSome_map (f := IoService.gen), hio, Option.isSome_map]
  cases pos <;> simp only [provides, hio, hsome]

/-- Who uses no service needs none. -/
theorem provides_of_unused (h : x.usesService = false) : s.provides x.run = true := by
  rw [ServiceThread.usesService] at h
  cases hr : x.run <;> rw [hr] at h <;> first | rfl | cases h

/-- A move within a call starts no use. -/
theorem Unused.withCall (h : s.Unused) (t : Fin N) (c : CallPos) :
    ∀ u, (Function.update s.threads t ((s.threads t).withCall c) u).usesService = false :=
  Family.forall_update (P := fun y : ServiceThread => y.usesService = false) h (h t)

/-- Nor does it change what a thread needs. -/
theorem Owned.withCall (h : s.Owned) (t : Fin N) (c : CallPos) :
    ∀ u, s.provides (Function.update s.threads t ((s.threads t).withCall c) u).run = true :=
  Family.forall_update (P := fun y : ServiceThread => s.provides y.run = true) h (h t)

/-- A thread that starts no use, or starts it when nobody is about to take the service away. -/
theorem Safe.unused_move (h : s.Safe) (hthreads : s'.threads = Function.update s.threads t x)
    (hrep : x.replaces = true → (s.threads t).replaces = true)
    (huse : x.usesService = true → (s.threads t).usesService = true ∨ ∀ u, (s.threads u).replaces = false) :
    ∀ u, (s'.threads u).replaces = true → s'.Unused := by
  intro u hu
  have hold : ∃ v, (s.threads v).replaces = true := by
    rw [hthreads, Function.update_apply] at hu
    split at hu
    · exact ⟨t, hrep hu⟩
    · exact ⟨u, hu⟩
  obtain ⟨v, hv⟩ := hold
  have hunused := h.alone v hv
  rw [Unused, hthreads]
  refine Family.forall_update (P := fun y : ServiceThread => y.usesService = false) hunused
    (Bool.eq_false_iff.mpr (fun hx => ?_))
  rcases huse hx with hu' | hnone
  · rw [hunused t] at hu'; cases hu'
  · rw [hnone v] at hv; cases hv

/-- **A move of one thread that leaves the dispatcher as it is**, apart from the counters and the handlers
    queued: it may not be a new `stop` about to finalize, a new `reset` past its store, or the end of one. -/
theorem Safe.move (h : s.Safe) (hthreads : s'.threads = Function.update s.threads t x)
    (hworking : s'.isWorking = s.isWorking)
    (hio : s'.ioservice.map IoService.gen = s.ioservice.map IoService.gen)
    (hfin : x.call = .finalizing → (s.threads t).call = .finalizing)
    (hrep : x.replaces = true → (s.threads t).replaces = true)
    (hset : (s.threads t).call = .resetSet → x.call = .resetSet)
    (huse : x.usesService = true → (s.threads t).usesService = true ∨ ∀ u, (s.threads u).replaces = false)
    (hprov : s.provides x.run = true) : s'.Safe where
  cleared := by
    rw [hworking, hthreads]
    exact Family.forall_update (P := fun y : ServiceThread => y.call = .finalizing → s.isWorking = false) h.cleared
      (fun hx => h.cleared t (hfin hx))
  alone := h.unused_move hthreads hrep huse
  working := by
    intro hw hno
    have hsome : s'.ioservice.isSome = s.ioservice.isSome := provides_congr hio .evaluating
    rw [hsome]
    refine h.working (by rw [← hworking, hw]) (fun u hu => ?_)
    have hnou := hno u
    rw [hthreads, Function.update_apply] at hnou
    split at hnou
    · next heq => exact hnou (hset (heq ▸ hu))
    · exact hnou hu
  owned := by
    intro u
    rw [provides_congr hio, hthreads]
    exact Family.forall_update (P := fun y : ServiceThread => s.provides y.run = true) h.owned hprov u

/-- The same for a move within a call. -/
theorem Safe.moveCall {c : CallPos} (h : s.Safe)
    (hthreads : s'.threads = Function.update s.threads t ((s.threads t).withCall c))
    (hworking : s'.isWorking = s.isWorking)
    (hio : s'.ioservice.map IoService.gen = s.ioservice.map IoService.gen)
    (hrep : ((s.threads t).withCall c).replaces = false) (hset : (s.threads t).call ≠ .resetSet) : s'.Safe :=
  h.move hthreads hworking hio
    (fun hx => by rw [ServiceThread.replaces, hx] at hrep; cases hrep)
    (fun hx => by rw [hrep] at hx; cases hx) (fun hx => absurd hx hset) (fun hu => .inl hu) (h.owned t)

/-- **Every step that keeps restarts settled is safe.** -/
theorem Safe.step {a : Act N} (h : s.Safe) (hc : s.RunCounted) (hok : s.RestartsSettled a)
    (hm : Move s a s') : s'.Safe := by
  cases hm with
  | @enter t ht =>
      refine h.move (t := t) rfl rfl rfl (fun hx => by cases hx) (fun hx => by cases hx)
        (fun hx => by rw [ht] at hx; cases hx) (fun hx => by cases hx) rfl
  | @testWorking t ht =>
      cases hw : s.isWorking with
      | false =>
          refine h.move (t := t) rfl rfl rfl (fun hx => by cases hx) (fun hx => by cases hx)
            (fun hx => by rw [ht] at hx; cases hx) (fun hx => by cases hx) rfl
      | true =>
          -- nobody is about to take the service away: a `stop` would have cleared the flag
          have hno : ∀ u, (s.threads u).replaces = false := by
            intro u
            have hreset := hok hw u
            have hstop := h.cleared u
            rw [ServiceThread.replaces]
            cases hcall : (s.threads u).call with
            | resetSet   => exact absurd hcall hreset
            | finalizing => exact absurd (hstop hcall) (by rw [hw]; decide)
            | idle | kickAllowed | kickCounted | stopAllowed | stopCleared | stopWaiting | resetAllowed => rfl
          refine h.move (t := t) rfl rfl rfl (fun hx => by cases hx) (fun hx => by cases hx)
            (fun hx => by rw [ht] at hx; cases hx) (fun _ => .inr hno) (h.working hw (hok hw))
  | @callRun t io ht hio =>
      refine h.move (t := t) rfl rfl rfl (fun hx => by cases hx) (fun hx => by cases hx)
        (fun hx => by rw [ht] at hx; cases hx) (fun _ => .inl (by rw [ht]; rfl)) ?_
      rw [provides, hio]
      exact beq_self_eq_true _
  | @returnRun t g ht =>
      refine h.move (t := t) rfl rfl rfl (fun hx => by cases hx) (fun hx => by cases hx)
        (fun hx => by rw [ht] at hx; cases hx) (fun hx => by cases hx) rfl
  | @leave t ht =>
      refine h.move (t := t) rfl rfl rfl (fun hx => by cases hx) (fun hx => by cases hx)
        (fun hx => by rw [ht] at hx; cases hx) (fun hx => by cases hx) rfl
  | @kickHandler t io ht hio _ =>
      exact h.move (t := t) (Function.update_eq_self t s.threads).symm rfl (by rw [hio]; rfl) id id id
        .inl (h.owned t)
  | canKick ht _ | incKickCount ht | stop ht | reset ht | stopThrew ht | elapsed ht _ =>
      exact h.moveCall rfl rfl rfl rfl (by rw [ht]; decide)
  | post ht hio | stopService ht hio =>
      exact h.moveCall rfl rfl (by rw [hio]; rfl) rfl (by rw [ht]; decide)
  | @clearIsWorking t ht =>
      refine ⟨fun _ _ => rfl, ?_, (fun hw => by cases hw), ?_⟩
      · exact h.unused_move rfl (fun hx => by cases hx) .inl
      · exact h.owned.withCall t _
  | @finished t ht hrun =>
      -- the counter is zero, so no thread uses the service
      have hunused : s.Unused := hc.unused hrun
      have hcleared : s.isWorking = false := hok hrun
      refine ⟨fun _ _ => hcleared, fun _ _ => hunused.withCall t _, fun hw => ?_, ?_⟩
      · exact absurd hcleared (by rw [show s.isWorking = true from hw]; decide)
      · exact h.owned.withCall t _
  | @finalize t ht =>
      have hunused : s.Unused := h.alone t (by rw [ServiceThread.replaces, ht])
      refine ⟨fun _ _ => h.cleared t ht, fun _ _ => hunused.withCall t _, fun hw => ?_, fun u => ?_⟩
      · exact absurd (h.cleared t ht) (by rw [show s.isWorking = true from hw]; decide)
      · exact provides_of_unused (hunused.withCall t _ u)
  | @setIsWorking t ht =>
      obtain ⟨hunused, hnofin⟩ := hok
      refine ⟨fun u hu => ?_, fun _ _ => hunused.withCall t _, fun _ hno => ?_, fun u => ?_⟩
      · exact absurd hu (Family.forall_update (P := fun y : ServiceThread => y.call ≠ .finalizing) hnofin
          (fun hx => by cases hx) u)
      · have hself : Function.update s.threads t ((s.threads t).withCall .resetSet) t
            = (s.threads t).withCall .resetSet := Function.update_self ..
        exact absurd (congrArg ServiceThread.call hself) (hno t)
      · exact provides_of_unused (hunused.withCall t _ u)
  | @createIoService t ht =>
      have hunused : s.Unused := h.alone t (by rw [ServiceThread.replaces, ht])
      refine ⟨?_, fun _ _ => hunused.withCall t _, fun _ _ => rfl, fun u => ?_⟩
      · exact Family.forall_update (P := fun y : ServiceThread => y.call = .finalizing → s.isWorking = false)
          h.cleared (fun hx => by cases hx)
      · exact provides_of_unused (hunused.withCall t _ u)
  | refused _ => exact h

/-! ## Runs -/

/-- **The `io_service` outlives its users as long as restarts are settled**: after any steps of any number of
    threads, in `run`, `kick_dispatcher`, `stop` and `reset`, a thread about to evaluate `ioservice()` finds a
    service, and a thread inside `io_service::run` is inside the one the dispatcher owns. -/
theorem ioservice_outlives (as : List (Act N)) (s : ServiceState N)
    (hok : Machine.Guarded ServiceState.step RestartsSettled .init as)
    (hrun : Machine.run ServiceState.step .init as = some s) : s.Owned := by
  have hs : s.Safe ∧ s.RunCounted := Machine.run_guarded_invariant (fun s => s.Safe ∧ s.RunCounted)
    (fun _ _ _ h hok hs => ⟨h.1.step h.2 hok (step_move hs), h.2.move (step_move hs)⟩) as _ _ ⟨.init, .init⟩ hok
    hrun
  exact hs.1.owned

/-- Thread `t` enters `run` and runs the service. -/
def enters (t : Fin N) : List (Act N) := [.run t .enter, .run t .testWorking, .run t .callRun]

/-- Thread `t` finds `_is_working` cleared and leaves `run`. -/
def leaves (t : Fin N) : List (Act N) := [.run t .returnRun, .run t .testWorking, .run t .leave]

/-- Thread `u` stops the dispatcher, up to the wait for the threads. -/
def stopBy (u : Fin N) : List (Act N) := [.call u .stop, .call u .clearIsWorking, .call u .stopService]

/-- The wait is over, and nobody is left. -/
def finalizeBy (u : Fin N) : List (Act N) := [.call u .waitEnds, .call u .finalize]

/-- Thread `u` resets the dispatcher. -/
def resetBy (u : Fin N) : List (Act N) := [.call u .reset, .call u .setIsWorking, .call u .createIoService]

/-- A restart the way it is meant: `t` leaves before the wait is over, and comes back to the new service. -/
def restarted (t u : Fin N) : List (Act N) :=
  enters t ++ stopBy u ++ leaves t ++ finalizeBy u ++ resetBy u ++ enters t

/-- The guarantee on that run. -/
theorem ioservice_outlives_restarted : ∃ s : ServiceState 2,
    Machine.run ServiceState.step .init (restarted 0 1) = some s ∧ s.Owned :=
  ⟨_, rfl, ioservice_outlives (restarted 0 1) _ (by decide +kernel) rfl⟩

/-- **`reset` replaces a service that is in use**: the wait of `stop` elapses while thread `0` is still inside
    `io_service::run`, for example in a slow handler. -/
theorem reset_replaces : ¬ ∀ (as : List (Act 2)) (s : ServiceState 2),
    Machine.run ServiceState.step .init as = some s → s.Owned := by
  intro hclaim
  have howned := hclaim (enters 0 ++ stopBy 1 ++ [.call 1 .waitEnds] ++ resetBy 1) _ rfl
  exact absurd howned (by decide +kernel)

end ServiceState

end Unicomm
