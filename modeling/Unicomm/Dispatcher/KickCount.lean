import Unicomm.Dispatcher.Ownership

/-!
# `Dispatcher.KickCount` — the kick counter across restarts

`_kick_count` goes up when a kick handler is about to be posted and down when it is executed. A handler that is
dropped with its service is never executed, and nothing ever takes it off the count: `lost` is the number of
such handlers, and no step lowers it (`Move.lost`). So the counter tells the truth at the end of a run **exactly
when no service was destroyed with a kick handler in it** (`kickCount_eq_queued_iff`).
-/

namespace Unicomm

namespace ServiceThread

variable (x : ServiceThread)

/-- The thread is inside `kick_dispatcher`. -/
def kicking : Bool :=
  match x.call with
  | .kickAllowed | .kickCounted => true
  | _ => false

/-- The thread has incremented the counter and is about to post. -/
def posting : Bool := x.call == .kickCounted

end ServiceThread

namespace ServiceState

variable {N : Nat} (s : ServiceState N)

/-- The kick handlers queued in the service and not yet started. -/
def queued : Nat := (s.ioservice.map IoService.kicks).getD 0

/-- The threads about to post. -/
def posters : Nat := Family.count ServiceThread.posting s.threads

/-- The kicks that are counted although no handler will count them off. -/
def lost : Int := s.kickCount - s.queued - s.posters

/-- The step destroys the service there is. -/
def Act.destroys : Act N → Bool
  | .call _ .finalize | .call _ .createIoService => true
  | _ => false

/-- A service is destroyed only when no kick handler is queued in it. -/
def KeepsKicks (a : Act N) : Prop := a.destroys = true → s.queued = 0

instance (a : Act N) : Decidable (s.KeepsKicks a) := inferInstanceAs (Decidable (_ → _))

variable {s} {s' : ServiceState N} {t : Fin N}

/-- A move of one thread changes what is lost by as much as its counter, its handlers and its posting differ. -/
theorem lost_update {x : ServiceThread} {d : Int} (hthreads : s'.threads = Function.update s.threads t x)
    (hdiff : s'.kickCount - s'.queued + (s.threads t).posting.toNat = s.kickCount - s.queued + x.posting.toNat + d) :
    s'.lost = s.lost + d := by
  have hposters : s'.posters + (s.threads t).posting.toNat = s.posters + x.posting.toNat := by
    rw [posters, hthreads]
    exact Family.count_update ..
  rw [lost, lost]
  omega

theorem posting_of_call {x : ServiceThread} {c : CallPos} (h : x.call = c) : x.posting = (c == .kickCounted) := by
  rw [ServiceThread.posting, h]

theorem queued_some {io : IoService} (hio : s.ioservice = some io) : s.queued = io.kicks := by
  rw [queued, hio]; rfl

/-- **What a step loses**: the kick handlers of a service it destroys, and nothing else. -/
theorem Move.lost {a : Act N} (hm : Move s a s') :
    s'.lost = s.lost + (if a.destroys then s.queued else 0 : Nat) := by
  cases hm with
  | enter ht | testWorking ht | callRun ht _ | returnRun ht | leave ht =>
      refine lost_update rfl ?_
      rw [ht]
      exact (Int.add_zero _).symm
  | canKick ht _ | stop ht | clearIsWorking ht | stopThrew ht | finished ht _ | elapsed ht _ | reset ht
  | setIsWorking ht =>
      refine lost_update rfl ?_
      rw [posting_of_call ht]
      exact (Int.add_zero _).symm
  -- a handler that runs takes its kick out of the service and out of the counter
  | @kickHandler t io _ hio hkicks =>
      refine lost_update (t := t) (Function.update_eq_self t s.threads).symm ?_
      rw [queued_some hio]
      show s.kickCount - 1 - ((io.kicks - 1 : Nat) : Int) + _ = s.kickCount - io.kicks + _ + 0
      omega
  -- between `inc_kick_count` and the post the thread itself stands for the handler
  | incKickCount ht =>
      refine lost_update rfl ?_
      rw [posting_of_call ht]
      show s.kickCount + 1 - s.queued + 0 = s.kickCount - s.queued + 1 + 0
      omega
  | @post t io ht hio =>
      refine lost_update rfl ?_
      rw [posting_of_call ht, queued_some hio]
      show s.kickCount - ((io.kicks + 1 : Nat) : Int) + 1 = s.kickCount - io.kicks + 0 + 0
      omega
  | @stopService t io ht hio =>
      refine lost_update rfl ?_
      rw [posting_of_call ht, queued_some hio]
      exact (Int.add_zero _).symm
  -- what is still queued goes with the service
  | finalize ht | createIoService ht =>
      refine lost_update rfl ?_
      rw [posting_of_call ht]
      show s.kickCount - 0 + 0 = s.kickCount - s.queued + 0 + s.queued
      omega
  | refused hop =>
      obtain rfl | rfl | rfl := hop <;> exact (Int.add_zero _).symm

/-! ## Runs -/

theorem lost_init : (ServiceState.init : ServiceState N).lost = 0 := by
  rw [lost, posters, ServiceState.init, Family.count_const rfl]
  rfl

theorem step_lost {a : Act N} (h : s.step a = some s') :
    s'.lost = s.lost + (if a.destroys then s.queued else 0 : Nat) := (step_move h).lost

/-- A run loses nothing exactly when it destroys no service with a kick handler in it. -/
theorem lost_eq_zero_iff {as : List (Act N)} (hrun : Machine.run ServiceState.step .init as = some s) :
    s.lost = 0 ↔ Machine.Guarded ServiceState.step KeepsKicks .init as := by
  constructor
  · intro hzero
    have hsplit : Machine.Guarded ServiceState.step KeepsKicks .init as ∨ 0 < s.lost :=
      Machine.guarded_or_bad (fun s => 0 ≤ s.lost) (fun s => 0 < s.lost)
        (fun s a s' h hs => by rw [step_lost hs]; omega)
        (fun s a s' h hno hs => by
          obtain ⟨hdestroys, hqueued⟩ := Classical.not_imp.mp hno
          rw [step_lost hs, if_pos hdestroys]
          omega)
        (fun s a s' h hs => by rw [step_lost hs]; omega) as _ _ (Int.le_of_eq lost_init.symm) hrun
    exact hsplit.resolve_right (fun hpos => by omega)
  · intro hok
    refine Machine.run_guarded_invariant (fun s => s.lost = 0) (fun s a s' h hok hs => ?_) as _ _ lost_init hok hrun
    rw [step_lost hs, h]
    by_cases hd : a.destroys = true
    · rw [if_pos hd, hok hd]; rfl
    · rw [if_neg hd]; rfl

/-- Where there is a service, some thread is inside `run` and no kick handler is queued, the next
    `kick_dispatcher` posts one. -/
def NextKickPosts (s : ServiceState N) : Prop :=
  s.ioservice.isSome = true → (∃ u, (s.threads u).inside = true) → s.queued = 0 →
    ∀ t, (s.threads t).call = .idle → canCall (s.threads t).run = true →
      ∃ s', Machine.run ServiceState.step s [.call t .canKick, .call t .incKickCount, .call t .post] = some s'
        ∧ s'.queued = 1

/-- The second step of a kick leads to the third. -/
theorem step_incKickCount (hcan : canCall (s.threads t).run = true) (ht : (s.threads t).call = .kickAllowed) :
    ∃ s', s.step (.call t .incKickCount) = some s' ∧ canCall (s'.threads t).run = true
      ∧ (s'.threads t).call = .kickCounted ∧ s'.ioservice = s.ioservice := by
  refine ⟨{ s with kickCount := s.kickCount + 1 }.setCall t .kickCounted, ?_, ?_, ?_, rfl⟩
  · simp [step, callStep, hcan, ht]
  · rw [setCall_self]; exact hcan
  · rw [setCall_self]; rfl

/-- The third step posts. -/
theorem step_post {io : IoService} (hcan : canCall (s.threads t).run = true)
    (ht : (s.threads t).call = .kickCounted) (hio : s.ioservice = some io) :
    ∃ s', s.step (.call t .post) = some s' ∧ s'.queued = io.kicks + 1 := by
  refine ⟨{ s with ioservice := some { io with kicks := io.kicks + 1 } }.setCall t .idle, ?_, rfl⟩
  simp [step, callStep, hcan, ht, hio]

/-- A truthful counter lets the next kick through. -/
theorem nextKickPosts_of_eq (hc : s.RunCounted) (h : s.kickCount = s.queued) : s.NextKickPosts := by
  intro hio hinside hqueued t ht hcan
  obtain ⟨io, hio⟩ := Option.isSome_iff_exists.mp hio
  obtain ⟨u, hu⟩ := hinside
  have hpos : 0 < Family.count ServiceThread.inside s.threads := Family.count_pos hu
  have hlt : s.kickCount < s.runCount := by rw [hc, h]; omega
  have htest : s.step (.call t .canKick) = some (s.setCall t .kickAllowed) := by
    simp [step, callStep, hcan, ht, hlt]
  have hcan₁ : canCall ((s.setCall t .kickAllowed).threads t).run = true := by rw [setCall_self]; exact hcan
  have hcall₁ : ((s.setCall t .kickAllowed).threads t).call = .kickAllowed := by rw [setCall_self]; rfl
  obtain ⟨s₂, hinc, hcan₂, hcall₂, hio₂⟩ := step_incKickCount hcan₁ hcall₁
  obtain ⟨s₃, hpost, hqueued₃⟩ := step_post hcan₂ hcall₂ (hio₂.trans hio)
  refine ⟨s₃, Machine.run_cons_eq_some.mpr ⟨_, htest, Machine.run_cons_eq_some.mpr ⟨_, hinc,
    Machine.run_cons_eq_some.mpr ⟨_, hpost, rfl⟩⟩⟩, ?_⟩
  rw [hqueued₃, ← queued_some hio, hqueued]

/-- **The kick counter tells the truth exactly as long as no service was destroyed with a kick handler in it.**
    After any steps of any number of threads, in `run`, `kick_dispatcher`, `stop` and `reset`, none of them left
    inside `kick_dispatcher`: the counter is the number of kick handlers queued and not started, and the next
    kick gets through when none is, if and only if no `finalize` or `initialize` of the run dropped one. -/
theorem kickCount_eq_queued_iff (as : List (Act N)) (s : ServiceState N)
    (hrun : Machine.run ServiceState.step .init as = some s) (hidle : ∀ t, (s.threads t).kicking = false) :
    (s.kickCount = s.queued ∧ s.NextKickPosts) ↔ Machine.Guarded ServiceState.step KeepsKicks .init as := by
  have hposters : s.posters = 0 := Family.count_eq_zero (fun t => by
    have ht := hidle t
    rw [ServiceThread.kicking] at ht
    rw [ServiceThread.posting]
    cases hc : (s.threads t).call <;> rw [hc] at ht <;> first | rfl | cases ht)
  have hcounted : s.RunCounted := Machine.run_invariant RunCounted (fun _ _ _ h hs => h.move (step_move hs)) as _ _
    .init hrun
  rw [← lost_eq_zero_iff hrun, lost, hposters]
  constructor
  · intro h
    rw [h.1]; omega
  · intro h
    have heq : s.kickCount = s.queued := by omega
    exact ⟨heq, nextKickPosts_of_eq hcounted heq⟩

/-- A kick of thread `t`. -/
def kickBy (t : Fin N) : List (Act N) := [.call t .canKick, .call t .incKickCount, .call t .post]

/-- Thread `t` is in `run`, `u` kicks, and the handler is executed before `u` restarts the dispatcher. -/
def executedKick (t u : Fin N) : List (Act N) :=
  enters t ++ kickBy u ++ [.run t .kickHandler] ++ stopBy u ++ leaves t ++ finalizeBy u ++ resetBy u

/-- The same, but the service is stopped before the handler is executed. -/
def droppedKick (t u : Fin N) : List (Act N) :=
  enters t ++ kickBy u ++ stopBy u ++ leaves t ++ finalizeBy u ++ resetBy u

/-- The equivalence on the first run, where both sides hold. -/
theorem kickCount_eq_queued_iff_executedKick : ∃ s : ServiceState 2,
    Machine.run ServiceState.step .init (executedKick 0 1) = some s
      ∧ Machine.Guarded ServiceState.step KeepsKicks .init (executedKick (0 : Fin 2) 1)
      ∧ ((s.kickCount = s.queued ∧ s.NextKickPosts)
          ↔ Machine.Guarded ServiceState.step KeepsKicks .init (executedKick (0 : Fin 2) 1)) :=
  ⟨_, rfl, by decide +kernel, kickCount_eq_queued_iff (executedKick 0 1) _ rfl (by decide +kernel)⟩

/-- **A dropped kick silences the dispatcher**: after the restart no handler is queued, thread `0` is inside
    `run`, and the kick is suppressed. -/
theorem kick_leaks : ¬ ∀ (as : List (Act 2)) (s : ServiceState 2),
    Machine.run ServiceState.step .init as = some s → (∀ t, (s.threads t).kicking = false) →
    s.kickCount = s.queued ∧ s.NextKickPosts := by
  intro hclaim
  have hcount := (hclaim (droppedKick 0 1) _ rfl (by decide +kernel)).1
  exact absurd hcount (by decide +kernel)

end ServiceState

end Unicomm
